/-
  Esp32Cam.Mav.FtpAnswers — what an answer of the autopilot, and the timer, do to the client.

  `Takes c m c'` says which answer the message `m` is to the client `c`, and what it
  makes of it: a session granted or denied, a write acknowledged or refused, a session
  closed or not closed. Every message is one of these, or changes nothing but the timer
  (`process_takes`). `Effective` are the messages of the first kind. `request` is the
  message the client forms in each state. `Fires` says the same of the timer
  (`onHrTimer_fires`).
-/

import Esp32Cam.Mav.BftFtpClient

namespace Esp32Cam.Mav.BftFtpClient

open Esp32Cam.Lib Esp32Cam.Bft

/-- The message is addressed to this component and answers the request `reqOp` with `op`. -/
structure Answers (m : FileTransferProtocol) (reqOp op : Ftp.Op) : Prop where
  target : isTarget m = true
  reqOpcode : m.payload.reqOpcode = reqOp.code
  opcode : m.payload.opcode = op.code

instance (m : FileTransferProtocol) (reqOp op : Ftp.Op) : Decidable (Answers m reqOp op) :=
  decidable_of_iff (isTarget m = true ∧ m.payload.reqOpcode = reqOp.code ∧ m.payload.opcode = op.code)
    ⟨fun h => ⟨h.1, h.2.1, h.2.2⟩, fun h => ⟨h.1, h.2, h.3⟩⟩

theorem Answers.op_unique {m : FileTransferProtocol} {r r' : Ftp.Op} (h : Answers m r .ack) (h' : Answers m r' .nak) :
    False := by
  have := h.opcode.symm.trans h'.opcode
  revert this
  decide

def awaited : State → Option Ftp.Op
  | .idle => none
  | .creatingSession => some .openFileWo
  | .transferring => some .writeFile
  | .closingSession => some .terminateSession
  | .max => none

/-- The message is an answer the client acts on. -/
def Effective (c : BftFtpClient) (m : FileTransferProtocol) : Prop :=
  ∃ r, awaited c.requestRepeat.state = some r ∧ (Answers m r .nak ∨
    Answers m r .ack ∧ (c.requestRepeat.state = .transferring → c.validateIncomingMessageSessionId m = true))

/-! ## The three requests -/

def openRequest (c : BftFtpClient) : FileTransferProtocol :=
  FileTransferProtocol.setOpenFileSessionFields {} c.requestRepeat.messageSequenceNumber .openFileWo kTemporaryFilePath

/-- The bytes behind the file's cursor, and the file system once they are read. -/
def nextChunk (c : BftFtpClient) : SingleBufferRamFileSystem × List UInt8 :=
  match c.requestRepeat.bftFile with
  | none => (c.fs, [])
  | some file => file.read c.fs Ftp.kMaxDataLength

def writeRequest (c : BftFtpClient) : FileTransferProtocol :=
  FileTransferProtocol.setWriteFileFields
    { payload := { size := UInt8.ofNat c.nextChunk.2.length, data := c.nextChunk.2 } } c.requestRepeat.messageSequenceNumber
    c.requestRepeat.mavlinkFtpSessionId.toUInt8 (uint32 c.requestRepeat.fileOffset)

def terminateRequest (c : BftFtpClient) : FileTransferProtocol :=
  FileTransferProtocol.setTerminateSessionFields {} c.requestRepeat.messageSequenceNumber
    c.requestRepeat.mavlinkFtpSessionId.toUInt8

def request (c : BftFtpClient) (m : MavlinkMessage) : MavlinkMessage :=
  match c.requestRepeat.state with
  | .idle => m
  | .creatingSession => .fileTransferProtocol c.openRequest
  | .transferring => .fileTransferProtocol c.writeRequest
  | .closingSession => .fileTransferProtocol c.terminateRequest
  | .max => m

theorem initializeMavlinkMessage_eq (c : BftFtpClient) (m : MavlinkMessage) : c.initializeMavlinkMessage m =
    (if c.requestRepeat.state = .transferring then { c with fs := c.nextChunk.1 } else c, c.request m) := by
  unfold initializeMavlinkMessage request
  cases c.requestRepeat.state <;> rfl

theorem respond_eq (c : BftFtpClient) (m : MavlinkMessage) : c.respond m =
    { c with
      fs := if c.requestRepeat.state = .transferring then c.nextChunk.1 else c.fs
      sent := c.sent ++ [c.request m] } := by
  by_cases h : c.requestRepeat.state = .transferring
  · simp only [respond, initializeMavlinkMessage_eq, h, if_true, send]
  · simp only [respond, initializeMavlinkMessage_eq, h, if_false, send]

/-! ## The six answers -/

def sessionGranted (c : BftFtpClient) (m : FileTransferProtocol) : BftFtpClient :=
  ((c.stopTimer.handleSuccessfulAttemptCommon.handleTransferringTransition m.payload.session.toUInt32).respond
    (.fileTransferProtocol m)).startOnce

def sessionDenied (c : BftFtpClient) : BftFtpClient :=
  c.stopTimer.handleIdleTransition.push (.failed "Could not create session, got FAILED response")

/-- The state behind an acknowledged write, before the next request is formed. -/
def writeTaken (c : BftFtpClient) : BftFtpClient :=
  let c := c.stopTimer.handleSuccessfulAttemptTransferring
  if c.stateTransferringIsEof then c.handleClosingSessionTransition else c

def cursor (c : BftFtpClient) : Nat := c.getCurrentPosition.2

/-- The acknowledged write was the last: the cursor stands where the file is taken to end. -/
def atEof (c : BftFtpClient) : Bool := uint32 (int32 c.cursor) == c.requestRepeat.fileSize

theorem writeTaken_eq (c : BftFtpClient) : c.writeTaken =
    { c with
      fs := c.getCurrentPosition.1.fs
      timerArmed := false
      requestRepeat := { c.requestRepeat with
        iAttempt := 0
        messageSequenceNumber := c.requestRepeat.messageSequenceNumber + 1
        fileOffset := int32 c.cursor
        bftFile := if c.atEof then none else c.requestRepeat.bftFile
        state := if c.atEof then .closingSession else c.requestRepeat.state } } := by
  have hpos : c.stopTimer.handleSuccessfulAttemptCommon.getCurrentPosition =
      ({ c.stopTimer.handleSuccessfulAttemptCommon with fs := c.getCurrentPosition.1.fs }, c.cursor) := by
    unfold cursor getCurrentPosition
    have hf : c.stopTimer.handleSuccessfulAttemptCommon.requestRepeat.bftFile = c.requestRepeat.bftFile := rfl
    rw [hf]
    split <;> rfl
  unfold writeTaken handleSuccessfulAttemptTransferring stateTransferringIsEof
  rw [hpos]
  unfold atEof
  dsimp only
  by_cases he : (uint32 (int32 c.cursor) == c.requestRepeat.fileSize) = true
  · rw [if_pos he, if_pos he]
    exact if_pos he
  · rw [if_neg he, if_neg he]
    exact if_neg he

def writeAcknowledged (c : BftFtpClient) (m : FileTransferProtocol) : BftFtpClient :=
  let c := (c.writeTaken.respond (.fileTransferProtocol m)).startOnce
  c.push (.inProgress (uint32 c.requestRepeat.fileOffset) c.requestRepeat.fileSize)

def writeRefused (c : BftFtpClient) (m : FileTransferProtocol) : BftFtpClient :=
  ((c.stopTimer.push (.failed "Could not transfer a file chunk, got FAILED response")).handleClosingSessionTransition.respond
    (.fileTransferProtocol m)).startOnce

def sessionClosed (c : BftFtpClient) : BftFtpClient := (c.stopTimer.push .done).handleIdleTransition

def sessionNotClosed (c : BftFtpClient) : BftFtpClient :=
  c.stopTimer.handleIdleTransition.push (.failed "Could not close session, got FAILED response")

inductive Takes (c : BftFtpClient) (m : FileTransferProtocol) : BftFtpClient → Prop
  | nothing : ¬ Effective c m → Takes c m c
  | stopped : ¬ Effective c m → Takes c m c.stopTimer
  | granted : c.requestRepeat.state = .creatingSession → Answers m .openFileWo .ack → Takes c m (c.sessionGranted m)
  | denied : c.requestRepeat.state = .creatingSession → Answers m .openFileWo .nak → Takes c m c.sessionDenied
  | acknowledged : c.requestRepeat.state = .transferring → Answers m .writeFile .ack →
      c.validateIncomingMessageSessionId m = true → Takes c m (c.writeAcknowledged m)
  | refused : c.requestRepeat.state = .transferring → Answers m .writeFile .nak → Takes c m (c.writeRefused m)
  | closed : c.requestRepeat.state = .closingSession → Answers m .terminateSession .ack → Takes c m c.sessionClosed
  | notClosed : c.requestRepeat.state = .closingSession → Answers m .terminateSession .nak →
      Takes c m c.sessionNotClosed

section
variable {c : BftFtpClient} {m : FileTransferProtocol}

theorem not_effective_of_reqOpcode {r : Ftp.Op} (hs : awaited c.requestRepeat.state = some r)
    (hreq : m.payload.reqOpcode ≠ r.code) : ¬ Effective c m := by
  rintro ⟨r', hr', h | ⟨h, _⟩⟩ <;>
  · obtain rfl : r = r' := Option.some_inj.mp (hs.symm.trans hr')
    exact hreq h.reqOpcode

theorem not_effective_of_opcode (hack : m.payload.opcode ≠ Ftp.Op.ack.code) (hnak : m.payload.opcode ≠ Ftp.Op.nak.code) :
    ¬ Effective c m := by
  intro h
  rcases h with ⟨_, _, h | ⟨h, _⟩⟩
  · exact hnak h.opcode
  · exact hack h.opcode

theorem not_effective_of_awaited (hs : awaited c.requestRepeat.state = none) : ¬ Effective c m := by
  intro h
  rcases h with ⟨_, hr, _⟩
  rw [hs] at hr
  cases hr

theorem creatingSession_takes (ht : isTarget m = true) (hs : c.requestRepeat.state = .creatingSession) :
    Takes c m (c.processMavlinkMessageCreatingSession m).1 := by
  unfold processMavlinkMessageCreatingSession
  by_cases hreq : m.payload.reqOpcode = Ftp.Op.openFileWo.code
  · rw [if_pos hreq]
    by_cases hack : m.payload.opcode = Ftp.Op.ack.code
    · simp only [hack, if_true]; exact .granted hs ⟨ht, hreq, hack⟩
    · by_cases hnak : m.payload.opcode = Ftp.Op.nak.code
      · simp only [hnak, if_true]; exact .denied hs ⟨ht, hreq, hnak⟩
      · simp only [hack, hnak, if_false]; exact .stopped (not_effective_of_opcode hack hnak)
  · rw [if_neg hreq]; exact .nothing (not_effective_of_reqOpcode (by rw [hs]; rfl) hreq)

theorem transferring_takes (ht : isTarget m = true) (hs : c.requestRepeat.state = .transferring) :
    Takes c m (c.processMavlinkMessageTransferring m).1 := by
  unfold processMavlinkMessageTransferring
  by_cases hreq : m.payload.reqOpcode = Ftp.Op.writeFile.code
  · rw [if_pos hreq]
    by_cases hack : m.payload.opcode = Ftp.Op.ack.code
    · have hval : c.stopTimer.validateIncomingMessageSessionId m = c.validateIncomingMessageSessionId m := rfl
      simp only [hack, if_true, hval]
      cases hv : c.validateIncomingMessageSessionId m with
      | false =>
        refine .stopped ?_
        intro h
        rcases h with ⟨_, _, h | ⟨_, h⟩⟩
        · exact Answers.op_unique ⟨ht, hreq, hack⟩ h
        · rw [h hs] at hv; cases hv
      | true => exact .acknowledged hs ⟨ht, hreq, hack⟩ hv
    · by_cases hnak : m.payload.opcode = Ftp.Op.nak.code
      · simp only [hnak, if_true]; exact .refused hs ⟨ht, hreq, hnak⟩
      · simp only [hack, hnak, if_false]; exact .stopped (not_effective_of_opcode hack hnak)
  · rw [if_neg hreq]; exact .nothing (not_effective_of_reqOpcode (by rw [hs]; rfl) hreq)

theorem closingSession_takes (ht : isTarget m = true) (hs : c.requestRepeat.state = .closingSession) :
    Takes c m (c.processMavlinkMessageClosingSession m).1 := by
  unfold processMavlinkMessageClosingSession
  by_cases hreq : m.payload.reqOpcode = Ftp.Op.terminateSession.code
  · rw [if_pos hreq]
    by_cases hack : m.payload.opcode = Ftp.Op.ack.code
    · simp only [hack, if_true]; exact .closed hs ⟨ht, hreq, hack⟩
    · by_cases hnak : m.payload.opcode = Ftp.Op.nak.code
      · simp only [hnak, if_true]; exact .notClosed hs ⟨ht, hreq, hnak⟩
      · simp only [hack, hnak, if_false]; exact .stopped (not_effective_of_opcode hack hnak)
  · rw [if_neg hreq]; exact .nothing (not_effective_of_reqOpcode (by rw [hs]; rfl) hreq)

/-- Every message is one of the answers, or does nothing but stop the timer. -/
theorem process_takes (c : BftFtpClient) (m : FileTransferProtocol) :
    Takes c m (c.process (.fileTransferProtocol m)).1 := by
  by_cases ht : isTarget m = true
  · rw [process_target ht]
    cases hs : c.requestRepeat.state with
    | idle => exact .nothing (not_effective_of_awaited (by rw [hs]; rfl))
    | creatingSession => exact creatingSession_takes ht hs
    | transferring => exact transferring_takes ht hs
    | closingSession => exact closingSession_takes ht hs
    | max => exact .nothing (not_effective_of_awaited (by rw [hs]; rfl))
  · rw [process_not_target ht]
    refine .nothing ?_
    rintro ⟨_, _, h | ⟨h, _⟩⟩ <;> exact ht h.target

end

section
variable {c : BftFtpClient} {m : FileTransferProtocol}

theorem step_granted (hs : c.requestRepeat.state = .creatingSession) (hm : Answers m .openFileWo .ack) :
    step c (.message (.fileTransferProtocol m)) = c.sessionGranted m := by
  have hproc := process_target (c := c) hm.target
  simp only [hs, processMavlinkMessageCreatingSession, hm.reqOpcode, hm.opcode, if_true] at hproc
  exact congrArg Prod.fst hproc

theorem step_acknowledged (hs : c.requestRepeat.state = .transferring) (hm : Answers m .writeFile .ack)
    (hv : c.validateIncomingMessageSessionId m = true) :
    step c (.message (.fileTransferProtocol m)) = c.writeAcknowledged m := by
  have hproc := process_target (c := c) hm.target
  have hval : c.stopTimer.validateIncomingMessageSessionId m = true := hv
  simp only [hs, processMavlinkMessageTransferring, hm.reqOpcode, hm.opcode, if_true, hval, Bool.not_true, Bool.false_eq_true,
    if_false] at hproc
  exact congrArg Prod.fst hproc

end

/-! ## The timer -/

def attemptFailed : TransferUpdateEvent := .failed "Exceeded max. number of re-send attempts"

/-- What the timer does: the request is sent once more, or the transfer is given up, in
    the middle of it by closing the session. -/
inductive Fires (c : BftFtpClient) : BftFtpClient → Prop
  | idle : c.requestRepeat.iAttempt < knMaxAttempts → c.requestRepeat.state = .idle →
      Fires c c.stopTimer.handleFailedAttemptCommon
  | request : c.requestRepeat.iAttempt < knMaxAttempts →
      c.requestRepeat.state = .creatingSession ∨ c.requestRepeat.state = .closingSession →
      Fires c c.stopTimer.handleFailedAttemptCommon.notifyDelayedSend.startOnce
  | write : c.requestRepeat.iAttempt < knMaxAttempts → c.requestRepeat.state = .transferring →
      Fires c c.stopTimer.handleFailedAttemptCommon.resendFileTransferRequest.startOnce
  | max : c.requestRepeat.iAttempt < knMaxAttempts → c.requestRepeat.state = .max →
      Fires c c.stopTimer.handleFailedAttemptCommon.startOnce
  | givenUp : knMaxAttempts ≤ c.requestRepeat.iAttempt →
      c.requestRepeat.state = .idle ∨ c.requestRepeat.state = .creatingSession ∨ c.requestRepeat.state = .closingSession →
      Fires c (c.stopTimer.handleIdleTransition.push attemptFailed)
  | closing : knMaxAttempts ≤ c.requestRepeat.iAttempt →
      c.requestRepeat.state = .transferring ∨ c.requestRepeat.state = .max →
      Fires c (c.stopTimer.handleClosingSessionTransition.push attemptFailed).notifyDelayedSend.startOnce

theorem onHrTimer_fires (c : BftFtpClient) : Fires c c.onHrTimer := by
  have hs' : c.stopTimer.requestRepeat = c.requestRepeat := rfl
  unfold onHrTimer onHrTimerAttempt
  rw [hs']
  by_cases hi : knMaxAttempts ≤ c.requestRepeat.iAttempt
  · rw [if_pos hi]
    cases hs : c.requestRepeat.state with
    | idle => exact .givenUp hi (Or.inl hs)
    | creatingSession => exact .givenUp hi (Or.inr (Or.inl hs))
    | transferring => exact .closing hi (Or.inl hs)
    | closingSession => exact .givenUp hi (Or.inr (Or.inr hs))
    | max => exact .closing hi (Or.inr hs)
  · rw [if_neg hi]
    have hlt : c.requestRepeat.iAttempt < knMaxAttempts := by omega
    have hst : c.stopTimer.handleFailedAttemptCommon.requestRepeat.state = c.requestRepeat.state := rfl
    unfold onHrTimerResend
    rw [hst]
    cases hs : c.requestRepeat.state with
    | idle => exact .idle hlt hs
    | creatingSession => exact .request hlt (Or.inl hs)
    | transferring => exact .write hlt hs
    | closingSession => exact .request hlt (Or.inr hs)
    | max => exact .max hlt hs

/-! ## The client and its file -/

/-- All the client does to its file is to move the cursor, and in the end to let it go. -/
structure Minds (c c' : BftFtpClient) : Prop where
  fs : Moved c.fs c'.fs
  bftFile : c'.requestRepeat.bftFile = c.requestRepeat.bftFile ∨ c'.requestRepeat.bftFile = none

section
variable {c c' c'' : BftFtpClient}

theorem Minds.of_same (hfs : c'.fs = c.fs) (hfile : c'.requestRepeat.bftFile = c.requestRepeat.bftFile) : Minds c c' :=
  ⟨hfs ▸ Moved.refl _, Or.inl hfile⟩

theorem Minds.of_released (hfs : c'.fs = c.fs) (hfile : c'.requestRepeat.bftFile = none) : Minds c c' :=
  ⟨hfs ▸ Moved.refl _, Or.inr hfile⟩

theorem Minds.trans (h : Minds c c') (h' : Minds c' c'') : Minds c c'' := by
  refine ⟨h.fs.trans h'.fs, ?_⟩
  rcases h'.bftFile with heq | hnone
  · rw [heq]; exact h.bftFile
  · exact Or.inr hnone

theorem nextChunk_moved (c : BftFtpClient) : Moved c.fs c.nextChunk.1 := by
  unfold nextChunk
  split
  · exact .refl _
  · rename_i file _
    exact file.read_moved _ _

theorem respond_minds (c : BftFtpClient) (m : MavlinkMessage) : Minds c (c.respond m) := by
  refine ⟨?_, Or.inl (by rw [respond_requestRepeat])⟩
  rw [respond_eq]
  dsimp only
  split
  · exact nextChunk_moved c
  · exact .refl _

theorem seekFile_minds (c : BftFtpClient) (offset : Int) : Minds c (c.seekFile offset) := by
  refine ⟨?_, Or.inl (by rw [seekFile_requestRepeat])⟩
  unfold seekFile
  split
  · exact .refl _
  · rename_i file _
    exact file.seek_moved _ _ _

theorem getCurrentPosition_minds (c : BftFtpClient) : Minds c c.getCurrentPosition.1 := by
  refine ⟨?_, Or.inl (by rw [getCurrentPosition_requestRepeat])⟩
  unfold getCurrentPosition
  split
  · exact .refl _
  · rename_i file _
    exact file.getCurrentPosition_moved _

theorem handleTransferringTransition_minds (c : BftFtpClient) (sessionId : UInt32) :
    Minds c (c.handleTransferringTransition sessionId) := by
  have hcommon : Minds c c.handleTransitionCommon := .of_same rfl rfl
  have hseek : Minds c (c.handleTransitionCommon.seekFile 0) := hcommon.trans (seekFile_minds _ 0)
  exact (hseek.trans (getCurrentPosition_minds _)).trans (.of_same rfl rfl)

theorem writeTaken_minds (c : BftFtpClient) : Minds c c.writeTaken := by
  rw [writeTaken_eq]
  refine ⟨(getCurrentPosition_minds c).fs, ?_⟩
  dsimp only
  split
  · exact Or.inr rfl
  · exact Or.inl rfl

theorem takes_minds {m : FileTransferProtocol} (h : Takes c m c') : Minds c c' := by
  cases h with
  | nothing _ => exact .of_same rfl rfl
  | stopped _ => exact .of_same rfl rfl
  | granted _ _ =>
    have hattempt : Minds c c.stopTimer.handleSuccessfulAttemptCommon := .of_same rfl rfl
    have htransition := hattempt.trans (handleTransferringTransition_minds _ m.payload.session.toUInt32)
    exact (htransition.trans (respond_minds _ (.fileTransferProtocol m))).trans (.of_same rfl rfl)
  | denied _ _ => exact .of_released rfl rfl
  | acknowledged _ _ _ =>
    exact ((writeTaken_minds c).trans (respond_minds _ (.fileTransferProtocol m))).trans (.of_same rfl rfl)
  | refused _ _ =>
    have hclosing : Minds c (c.stopTimer.push (.failed
        "Could not transfer a file chunk, got FAILED response")).handleClosingSessionTransition := .of_released rfl rfl
    exact (hclosing.trans (respond_minds _ (.fileTransferProtocol m))).trans (.of_same rfl rfl)
  | closed _ _ => exact .of_released rfl rfl
  | notClosed _ _ => exact .of_released rfl rfl

theorem fires_minds (h : Fires c c') : Minds c c' := by
  cases h with
  | idle _ _ => exact .of_same rfl rfl
  | request _ _ => exact .of_same rfl rfl
  | write _ _ =>
    have hattempt : Minds c c.stopTimer.handleFailedAttemptCommon := .of_same rfl rfl
    exact (hattempt.trans (seekFile_minds _ _)).trans (.of_same rfl rfl)
  | max _ _ => exact .of_same rfl rfl
  | givenUp _ _ => exact .of_released rfl rfl
  | closing _ _ => exact .of_released rfl rfl

/-- Whatever happens to it, but for a new file. -/
theorem step_minds (c : BftFtpClient) {e : Event} (h : ∀ fs file, e ≠ .onFileBufferingFinished fs file) :
    Minds c (c.step e) := by
  cases e with
  | onFileBufferingFinished fs file => exact absurd rfl (h fs file)
  | message m =>
    cases m with
    | other _ => exact .of_same rfl rfl
    | fileTransferProtocol m => exact takes_minds (process_takes c m)
  | onHrTimer => exact fires_minds (onHrTimer_fires c)
  | onDelayedSend =>
    show Minds c c.onDelayedSend
    unfold onDelayedSend
    split
    · exact .of_same rfl rfl
    · have htaken : Minds c { c with delayedSends := c.delayedSends - 1 } := .of_same rfl rfl
      exact htaken.trans (respond_minds _ _)

end

/-! ## A file being sent -/

/-- The bytes a WriteFile formed at `p` carries. -/
def chunkAt (content : List UInt8) (p : Nat) : List UInt8 := (content.drop p).take Ftp.kMaxDataLength

theorem length_chunkAt (content : List UInt8) (p : Nat) :
    (chunkAt content p).length = min Ftp.kMaxDataLength (content.length - p) := by
  rw [chunkAt, List.length_take, List.length_drop]

/-- The client sends `file`, which holds `content` with its cursor at `p`. -/
structure Uploading (file : File) (content : List UInt8) (p : Nat) (c : BftFtpClient) : Prop where
  state : c.requestRepeat.state = .transferring
  bftFile : c.requestRepeat.bftFile = some file
  holds : Holds c.fs file content p

section
variable {c : BftFtpClient} {file : File} {content : List UInt8} {p : Nat}

theorem Uploading.getCurrentPosition (h : Uploading file content p c) : c.getCurrentPosition = (c, p) := by
  unfold BftFtpClient.getCurrentPosition
  rw [h.bftFile]
  dsimp only
  rw [h.holds.getCurrentPosition]

theorem Uploading.cursor (h : Uploading file content p c) : c.cursor = p := by
  rw [BftFtpClient.cursor, h.getCurrentPosition]

theorem Uploading.lt (h : Uploading file content p c) : p < 2 ^ 31 :=
  Nat.lt_of_le_of_lt h.holds.inside h.holds.length_lt

theorem Uploading.nextChunk (h : Uploading file content p c) : c.nextChunk =
    ({ c.fs with memoryPoolCurrentPosition := p + (chunkAt content p).length }, chunkAt content p) := by
  unfold BftFtpClient.nextChunk
  rw [h.bftFile]
  exact h.holds.read _

theorem Uploading.atEof_eq (h : Uploading file content p c) : c.atEof = (p == c.requestRepeat.fileSize) := by
  have hp := h.lt
  rw [atEof, h.cursor, uint32_int32, uint32_of_lt (by omega)]

theorem chunkAt_inside (h : p ≤ content.length) : p + (chunkAt content p).length ≤ content.length := by
  rw [length_chunkAt]; omega

/-- The transition to the transferring state: the file is rewound, and its size taken for zero. -/
theorem handleTransferringTransition_eq (hf : c.requestRepeat.bftFile = some file) (hh : Holds c.fs file content p)
    (sessionId : UInt32) : c.handleTransferringTransition sessionId =
      { c with
        fs := { c.fs with memoryPoolCurrentPosition := 0 }
        requestRepeat := { c.requestRepeat with
          iAttempt := 0
          mavlinkFtpSessionId := sessionId
          fileOffset := 0
          fileSize := 0
          state := .transferring } } := by
  have hf' : c.handleTransitionCommon.requestRepeat.bftFile = some file := hf
  have hseek : c.handleTransitionCommon.seekFile 0 =
      { c.handleTransitionCommon with fs := { c.fs with memoryPoolCurrentPosition := 0 } } := by
    rw [seekFile, hf']
    dsimp only
    rw [show c.handleTransitionCommon.fs = c.fs from rfl, hh.rewind]
  have hpos : ({ c.handleTransitionCommon with fs := { c.fs with memoryPoolCurrentPosition := 0 } } :
      BftFtpClient).getCurrentPosition =
      ({ c.handleTransitionCommon with fs := { c.fs with memoryPoolCurrentPosition := 0 } }, 0) := by
    rw [BftFtpClient.getCurrentPosition]
    dsimp only
    rw [hf']
    dsimp only
    rw [(hh.at_cursor (Nat.zero_le _)).getCurrentPosition]
  rw [handleTransferringTransition]
  dsimp only
  rw [hseek, hpos]
  rfl

/-- Forming the request reads the next bytes. -/
theorem Uploading.respond (h : Uploading file content p c) (m : MavlinkMessage) :
    Uploading file content (p + (chunkAt content p).length) (c.respond m) where
  state := by rw [respond_requestRepeat]; exact h.state
  bftFile := by rw [respond_requestRepeat]; exact h.bftFile
  holds := by
    rw [respond_eq]
    dsimp only
    rw [if_pos h.state, h.nextChunk]
    exact h.holds.at_cursor (chunkAt_inside h.holds.inside)

end

section
variable {c : BftFtpClient} {file : File} {content : List UInt8} {p : Nat} {m : FileTransferProtocol}

/-- The client before it forms its first write. -/
def granted (c : BftFtpClient) (m : FileTransferProtocol) : BftFtpClient :=
  c.stopTimer.handleSuccessfulAttemptCommon.handleTransferringTransition m.payload.session.toUInt32

theorem granted_uploading (hf : c.requestRepeat.bftFile = some file) (hh : Holds c.fs file content p) :
    Uploading file content 0 (c.granted m) ∧ (c.granted m).requestRepeat.fileOffset = 0 ∧
      (c.granted m).requestRepeat.fileSize = 0 ∧
      (c.granted m).requestRepeat.mavlinkFtpSessionId = m.payload.session.toUInt32 := by
  have heq : c.granted m = _ := handleTransferringTransition_eq (c := c.stopTimer.handleSuccessfulAttemptCommon) hf hh
    m.payload.session.toUInt32
  rw [heq]
  exact ⟨⟨rfl, hf, hh.at_cursor (Nat.zero_le _)⟩, rfl, rfl, rfl⟩

theorem sessionGranted_eq (c : BftFtpClient) (m : FileTransferProtocol) :
    c.sessionGranted m = ((c.granted m).respond (.fileTransferProtocol m)).startOnce := rfl

/-- An acknowledged write that was not the last: the offset moves to the cursor. -/
theorem writeTaken_uploading (h : Uploading file content p c) (he : c.atEof = false) :
    Uploading file content p c.writeTaken ∧ c.writeTaken.requestRepeat.fileOffset = p ∧
      c.writeTaken.requestRepeat.fileSize = c.requestRepeat.fileSize ∧
      c.writeTaken.requestRepeat.mavlinkFtpSessionId = c.requestRepeat.mavlinkFtpSessionId := by
  rw [writeTaken_eq, he, h.getCurrentPosition, h.cursor]
  exact ⟨⟨h.state, h.bftFile, h.holds⟩, int32_of_lt h.lt, rfl, rfl⟩

end

/-! ## What a step sends -/

def newlySent (c : BftFtpClient) (e : Event) : List MavlinkMessage := (step c e).sent.drop c.sent.length

theorem newlySent_of_sent {c : BftFtpClient} {e : Event} {ms : List MavlinkMessage} (h : (step c e).sent = c.sent ++ ms) :
    newlySent c e = ms := by
  rw [newlySent, h, List.drop_left]

def isOfOp (op : Ftp.Op) : MavlinkMessage → Bool
  | .fileTransferProtocol m => m.payload.opcode == op.code
  | .other _ => false

theorem onHrTimer_sent (c : BftFtpClient) : c.onHrTimer.sent = c.sent := by
  have hfires := onHrTimer_fires c
  generalize c.onHrTimer = c' at hfires ⊢
  cases hfires with
  | write => simp [startOnce, resendFileTransferRequest, notifyDelayedSend, handleFailedAttemptCommon, stopTimer]
  | idle | request | max | givenUp | closing => rfl

section
variable {c : BftFtpClient} {e : Event} {w : MavlinkMessage}

theorem request_write (hs : c.requestRepeat.state = .transferring) (m : MavlinkMessage) :
    c.request m = .fileTransferProtocol c.writeRequest := by
  rw [request, hs]

theorem writeTaken_state (hs : c.requestRepeat.state = .transferring) (he : c.atEof = false) :
    c.writeTaken.requestRepeat.state = .transferring := by
  rw [writeTaken_eq, he]
  exact hs

theorem writeAcknowledged_sent (c : BftFtpClient) (m : FileTransferProtocol) :
    (c.writeAcknowledged m).sent = c.sent ++ [c.writeTaken.request (.fileTransferProtocol m)] := by
  simp only [writeAcknowledged, push, startOnce, respond_sent, initializeMavlinkMessage_eq, writeTaken_eq]

theorem granted_sent (c : BftFtpClient) (m : FileTransferProtocol) : (c.granted m).sent = c.sent := by
  simp only [granted, handleTransferringTransition, getCurrentPosition_sent, seekFile_sent]
  rfl

theorem granted_state (c : BftFtpClient) (m : FileTransferProtocol) : (c.granted m).requestRepeat.state = .transferring := rfl

theorem sessionGranted_sent (c : BftFtpClient) (m : FileTransferProtocol) :
    (c.sessionGranted m).sent = c.sent ++ [.fileTransferProtocol (c.granted m).writeRequest] := by
  simp only [sessionGranted_eq, startOnce, respond_eq, granted_sent, request_write (granted_state c m)]

theorem writeRefused_sent (c : BftFtpClient) (m : FileTransferProtocol) :
    (c.writeRefused m).sent = c.sent ++ [.fileTransferProtocol c.terminateRequest] := by
  simp only [writeRefused, startOnce, respond_sent, initializeMavlinkMessage_eq]
  rfl

theorem onDelayedSend_sent (hd : c.delayedSends ≠ 0) : c.onDelayedSend.sent =
    c.sent ++ [{ c with delayedSends := c.delayedSends - 1 }.request (.other 0)] := by
  rw [onDelayedSend, if_neg hd, respond_eq]

end

/-! ## A small transfer -/

/-- A file of three bytes in its buffer, the cursor behind them. -/
def threeByteFs : SingleBufferRamFileSystem := ⟨1, [1, 2, 3], 3, 3⟩
def threeByteFile : File := ⟨true, ⟨1⟩, 0⟩

theorem threeByte_holds : Holds threeByteFs threeByteFile [1, 2, 3] 3 :=
  ⟨rfl, rfl, rfl, rfl, Nat.le_refl _, rfl, by decide⟩

def answerMessage (reqOp op : Ftp.Op) (session : UInt8) : FileTransferProtocol where
  targetSystem := Globals.getSysId
  targetComponent := Globals.getCompId
  payload := { reqOpcode := reqOp.code, opcode := op.code, session := session }

def answer (reqOp op : Ftp.Op) (session : UInt8) : Event := .message (.fileTransferProtocol (answerMessage reqOp op session))

def waitingClient : BftFtpClient := step (init threeByteFs 0 0 0) (.onFileBufferingFinished threeByteFs threeByteFile)

end Esp32Cam.Mav.BftFtpClient
