/-
  Esp32Cam.Mav.BftFtpClient — the client that uploads a buffered file to the autopilot.

  The client is a state machine over `RequestRepeat`, driven by four kinds of events
  (`Event`): a buffered file, a MAVLink message, the resend timer, and the work queue's
  turn to initialize a message a resend has asked for. A resend seeks the file at once
  and queues its message (`delayedSends`); the message is formed, and the file read,
  only when the queue comes to it.

  `sent` are the messages handed to the other side, oldest first, `updates` the
  transfer notifications. The three states share one word, `mavlinkFtpSessionId`.

  A client that gives up logs the name of its state first, and there are names for three of
  the states only. `step` goes on as if the name had been there; `stepLogged` has no result
  where it is read from behind the table.
-/

import Esp32Cam.Lib.Run
import Esp32Cam.Bft.FileSystem
import Esp32Cam.Mav.FileTransferProtocol

namespace Esp32Cam.Bft

inductive TransferUpdateEvent where
  | inProgress (currentOffset fileSize : Nat)
  | done
  | failed (errorMessage : String)
  deriving DecidableEq, Repr

def TransferUpdateEvent.isTerminal : TransferUpdateEvent → Bool
  | .inProgress _ _ => false
  | .done => true
  | .failed _ => true

end Esp32Cam.Bft

namespace Esp32Cam.Mav

open Esp32Cam.Lib Esp32Cam.Bft

/-! ## State -/

inductive State where
  | idle | creatingSession | transferring | closingSession | max
  deriving DecidableEq, Repr

structure RequestRepeat where
  mavlinkFtpSessionId : UInt32
  fileOffset : Int
  fileSize : Nat
  iAttempt : Nat
  bftFile : Option File
  messageSequenceNumber : UInt16
  state : State
  deriving DecidableEq, Repr

structure BftFtpClient where
  requestRepeat : RequestRepeat
  /-- The file system behind the file that is being sent. -/
  fs : SingleBufferRamFileSystem
  timerArmed : Bool
  delayedSends : Nat
  sent : List MavlinkMessage
  updates : List TransferUpdateEvent
  deriving DecidableEq, Repr

def knMaxAttempts : Nat := 10

/-- `/dev/LuaScript/0` -/
def kTemporaryFilePath : List UInt8 :=
  [0x2F, 0x64, 0x65, 0x76, 0x2F, 0x4C, 0x75, 0x61, 0x53, 0x63, 0x72, 0x69, 0x70, 0x74, 0x2F, 0x30]

namespace BftFtpClient

/-- The client as constructed; the words of the union hold what they held. -/
def init (fs : SingleBufferRamFileSystem) (sessionId : UInt32) (fileOffset : Int) (fileSize : Nat) : BftFtpClient where
  requestRepeat := ⟨sessionId, fileOffset, fileSize, 0, none, 0, .idle⟩
  fs := fs
  timerArmed := false
  delayedSends := 0
  sent := []
  updates := []

/-! ## Effects -/

def startOnce (c : BftFtpClient) : BftFtpClient := { c with timerArmed := true }
def stopTimer (c : BftFtpClient) : BftFtpClient := { c with timerArmed := false }
def push (c : BftFtpClient) (e : TransferUpdateEvent) : BftFtpClient := { c with updates := c.updates ++ [e] }
def send (c : BftFtpClient) (m : MavlinkMessage) : BftFtpClient := { c with sent := c.sent ++ [m] }
def notifyDelayedSend (c : BftFtpClient) : BftFtpClient := { c with delayedSends := c.delayedSends + 1 }

/-- The file seeks; where there is none the program would crash, and nothing is done. -/
def seekFile (c : BftFtpClient) (offset : Int) : BftFtpClient :=
  match c.requestRepeat.bftFile with
  | none => c
  | some file => { c with fs := (file.seek c.fs offset .start).1 }

/-! ## Transitions of `RequestRepeat` -/

def handleTransitionCommon (c : BftFtpClient) : BftFtpClient :=
  { c with requestRepeat := { c.requestRepeat with iAttempt := 0 } }

def handleIdleTransition (c : BftFtpClient) : BftFtpClient :=
  { c with requestRepeat := { c.requestRepeat with bftFile := none, state := .idle } }

def getCurrentPosition (c : BftFtpClient) : BftFtpClient × Nat :=
  match c.requestRepeat.bftFile with
  | none => (c, 0)
  | some file =>
    let (fs, position) := file.getCurrentPosition c.fs
    ({ c with fs := fs }, position)

/-- The size of the file is taken from its cursor, which has just been put at the beginning. -/
def handleTransferringTransition (c : BftFtpClient) (mavlinkFtpSessionId : UInt32) : BftFtpClient :=
  let c := c.handleTransitionCommon
  let (c, position) := (c.seekFile 0).getCurrentPosition
  { c with requestRepeat := { c.requestRepeat with
      mavlinkFtpSessionId := mavlinkFtpSessionId
      fileOffset := 0
      fileSize := position
      state := .transferring } }

def handleCreatingSessionTransition (c : BftFtpClient) (file : File) : BftFtpClient :=
  let c := c.handleTransitionCommon
  { c with requestRepeat := { c.requestRepeat with bftFile := some file, state := .creatingSession } }

def handleClosingSessionTransition (c : BftFtpClient) : BftFtpClient :=
  let c := c.handleTransitionCommon
  { c with requestRepeat := { c.requestRepeat with bftFile := none, state := .closingSession } }

def handleSuccessfulAttemptCommon (c : BftFtpClient) : BftFtpClient :=
  { c with requestRepeat := { c.requestRepeat with
      iAttempt := 0
      messageSequenceNumber := c.requestRepeat.messageSequenceNumber + 1 } }

def handleSuccessfulAttemptTransferring (c : BftFtpClient) : BftFtpClient :=
  let (c, position) := c.handleSuccessfulAttemptCommon.getCurrentPosition
  { c with requestRepeat := { c.requestRepeat with fileOffset := int32 position } }

def handleFailedAttemptCommon (c : BftFtpClient) : BftFtpClient :=
  { c with requestRepeat := { c.requestRepeat with iAttempt := c.requestRepeat.iAttempt + 1 } }

def stateTransferringIsEof (c : BftFtpClient) : Bool := uint32 c.requestRepeat.fileOffset == c.requestRepeat.fileSize

/-! ## Messages -/

/-- The message of the current state; forming a WriteFile reads the file. -/
def initializeMavlinkMessage (c : BftFtpClient) (m : MavlinkMessage) : BftFtpClient × MavlinkMessage :=
  match c.requestRepeat.state with
  | .idle => (c, m)
  | .creatingSession =>
    (c, .fileTransferProtocol
      (FileTransferProtocol.setOpenFileSessionFields {} c.requestRepeat.messageSequenceNumber .openFileWo kTemporaryFilePath))
  | .transferring =>
    let (fs, data) := match c.requestRepeat.bftFile with
      | none => (c.fs, [])
      | some file => file.read c.fs Ftp.kMaxDataLength
    ({ c with fs := fs }, .fileTransferProtocol
      (FileTransferProtocol.setWriteFileFields { payload := { size := UInt8.ofNat data.length, data := data } }
        c.requestRepeat.messageSequenceNumber c.requestRepeat.mavlinkFtpSessionId.toUInt8
        (uint32 c.requestRepeat.fileOffset)))
  | .closingSession =>
    (c, .fileTransferProtocol
      (FileTransferProtocol.setTerminateSessionFields {} c.requestRepeat.messageSequenceNumber
        c.requestRepeat.mavlinkFtpSessionId.toUInt8))
  | .max => (c, m)

def respond (c : BftFtpClient) (m : MavlinkMessage) : BftFtpClient :=
  let (c, m) := c.initializeMavlinkMessage m
  c.send m

def validateIncomingMessageSessionId (c : BftFtpClient) (m : FileTransferProtocol) : Bool :=
  m.payload.session.toUInt32 == c.requestRepeat.mavlinkFtpSessionId

def resendSessionOpenRequest (c : BftFtpClient) : BftFtpClient := c.notifyDelayedSend
def resendSessionCloseRequest (c : BftFtpClient) : BftFtpClient := c.notifyDelayedSend

def resendFileTransferRequest (c : BftFtpClient) : BftFtpClient :=
  (c.seekFile c.requestRepeat.fileOffset).notifyDelayedSend

/-! ## Events -/

def processMavlinkMessageCreatingSession (c : BftFtpClient) (m : FileTransferProtocol) : BftFtpClient × Microservice.Ret :=
  if m.payload.reqOpcode = Ftp.Op.openFileWo.code then
    let c := c.stopTimer
    if m.payload.opcode = Ftp.Op.ack.code then
      let c := c.handleSuccessfulAttemptCommon
      let c := c.handleTransferringTransition m.payload.session.toUInt32
      ((c.respond (.fileTransferProtocol m)).startOnce, .response)
    else if m.payload.opcode = Ftp.Op.nak.code then
      (c.handleIdleTransition.push (.failed "Could not create session, got FAILED response"), .noResponse)
    else (c, .noResponse)
  else (c, .noResponse)

def processMavlinkMessageTransferring (c : BftFtpClient) (m : FileTransferProtocol) : BftFtpClient × Microservice.Ret :=
  if m.payload.reqOpcode = Ftp.Op.writeFile.code then
    let c := c.stopTimer
    if m.payload.opcode = Ftp.Op.ack.code then
      if !c.validateIncomingMessageSessionId m then (c, .ignored)
      else
        let c := c.handleSuccessfulAttemptTransferring
        let c := if c.stateTransferringIsEof then c.handleClosingSessionTransition else c
        let c := (c.respond (.fileTransferProtocol m)).startOnce
        (c.push (.inProgress (uint32 c.requestRepeat.fileOffset) c.requestRepeat.fileSize), .response)
    else if m.payload.opcode = Ftp.Op.nak.code then
      let c := c.push (.failed "Could not transfer a file chunk, got FAILED response")
      ((c.handleClosingSessionTransition.respond (.fileTransferProtocol m)).startOnce, .response)
    else (c, .ignored)
  else (c, .ignored)

def processMavlinkMessageClosingSession (c : BftFtpClient) (m : FileTransferProtocol) : BftFtpClient × Microservice.Ret :=
  if m.payload.reqOpcode = Ftp.Op.terminateSession.code then
    let c := c.stopTimer
    -- an acknowledgement of another session is accepted as well
    if m.payload.opcode = Ftp.Op.ack.code then ((c.push .done).handleIdleTransition, .noResponse)
    else if m.payload.opcode = Ftp.Op.nak.code then
      (c.handleIdleTransition.push (.failed "Could not close session, got FAILED response"), .noResponse)
    else (c, .ignored)
  else (c, .ignored)

def isTarget (m : FileTransferProtocol) : Bool :=
  m.targetComponent == Globals.getCompId && m.targetSystem == Globals.getSysId

def process (c : BftFtpClient) (m : MavlinkMessage) : BftFtpClient × Microservice.Ret :=
  match m with
  | .other _ => (c, .ignored)
  | .fileTransferProtocol m =>
    if !isTarget m then (c, .ignored)
    else match c.requestRepeat.state with
      | .idle => (c, .ignored)
      | .creatingSession => c.processMavlinkMessageCreatingSession m
      | .transferring => c.processMavlinkMessageTransferring m
      | .closingSession => c.processMavlinkMessageClosingSession m
      | .max => (c, .ignored)

/-- What the timer does about the attempt: one more, or the transfer is given up. -/
def onHrTimerAttempt (c : BftFtpClient) : BftFtpClient :=
  if c.requestRepeat.iAttempt ≥ knMaxAttempts then
    let c := match c.requestRepeat.state with
      | .idle | .creatingSession | .closingSession => c.handleIdleTransition
      | .transferring | .max => c.handleClosingSessionTransition
    c.push (.failed "Exceeded max. number of re-send attempts")
  else c.handleFailedAttemptCommon

def onHrTimerResend (c : BftFtpClient) : BftFtpClient :=
  match c.requestRepeat.state with
  | .idle => c
  | .creatingSession => c.resendSessionOpenRequest.startOnce
  | .transferring => c.resendFileTransferRequest.startOnce
  | .closingSession => c.resendSessionCloseRequest.startOnce
  | .max => c.startOnce

/-- The one-shot timer has fired, and is armed no more. -/
def onHrTimer (c : BftFtpClient) : BftFtpClient := c.stopTimer.onHrTimerAttempt.onHrTimerResend

def kStateNameMapping : List String := ["Idle", "Creating session", "Transferring"]

/-- A read from behind the table has no result. -/
def stateAsString (state : State) : Option String := kStateNameMapping[state.ctorIdx]?

def getCurrentStateAsString (c : BftFtpClient) : Option String := stateAsString c.requestRepeat.state

/-- `onHrTimer` with its log: the state is named where the attempts are exhausted, before anything is done about it. -/
def onHrTimerLogged (c : BftFtpClient) : Option BftFtpClient :=
  if c.requestRepeat.iAttempt ≥ knMaxAttempts then c.getCurrentStateAsString.map fun _ => c.onHrTimer
  else some c.onHrTimer

/-- A file is buffered in `fs`; a client at work keeps to its own. -/
def onFileBufferingFinished (c : BftFtpClient) (fs : SingleBufferRamFileSystem) (file : File) : BftFtpClient :=
  match c.requestRepeat.state with
  | .idle => ({ c with fs := fs }.handleCreatingSessionTransition file).resendSessionOpenRequest.startOnce
  | _ => c

/-- The work queue comes to a queued message. -/
def onDelayedSend (c : BftFtpClient) : BftFtpClient :=
  if c.delayedSends = 0 then c else { c with delayedSends := c.delayedSends - 1 }.respond (.other 0)

inductive Event where
  | onFileBufferingFinished (fs : SingleBufferRamFileSystem) (file : File)
  | message (m : MavlinkMessage)
  | onHrTimer
  | onDelayedSend
  deriving DecidableEq, Repr

def step (c : BftFtpClient) : Event → BftFtpClient
  | .onFileBufferingFinished fs file => c.onFileBufferingFinished fs file
  | .message m => (c.process m).1
  | .onHrTimer => c.onHrTimer
  | .onDelayedSend => c.onDelayedSend

/-- The step with the log of the timer. -/
def stepLogged (c : BftFtpClient) : Event → Option BftFtpClient
  | .onHrTimer => c.onHrTimerLogged
  | e => some (c.step e)

/-! ## Whose message it is -/

theorem process_target {c : BftFtpClient} {m : FileTransferProtocol} (h : isTarget m = true) :
    c.process (.fileTransferProtocol m) = match c.requestRepeat.state with
      | .idle => (c, .ignored)
      | .creatingSession => c.processMavlinkMessageCreatingSession m
      | .transferring => c.processMavlinkMessageTransferring m
      | .closingSession => c.processMavlinkMessageClosingSession m
      | .max => (c, .ignored) := by
  simp only [process, h, Bool.not_true, Bool.false_eq_true, if_false]

theorem process_not_target {c : BftFtpClient} {m : FileTransferProtocol} (h : ¬ isTarget m = true) :
    c.process (.fileTransferProtocol m) = (c, .ignored) := by
  have hf : isTarget m = false := by simpa using h
  simp only [process, hf, Bool.not_false, if_true]

/-! ## Frames -/

section
variable (c : BftFtpClient) (m : MavlinkMessage) (e : TransferUpdateEvent) (offset : Int)

@[simp] theorem initializeMavlinkMessage_requestRepeat :
    (c.initializeMavlinkMessage m).1.requestRepeat = c.requestRepeat := by
  unfold initializeMavlinkMessage; split <;> rfl
@[simp] theorem initializeMavlinkMessage_timerArmed : (c.initializeMavlinkMessage m).1.timerArmed = c.timerArmed := by
  unfold initializeMavlinkMessage; split <;> rfl
@[simp] theorem initializeMavlinkMessage_updates : (c.initializeMavlinkMessage m).1.updates = c.updates := by
  unfold initializeMavlinkMessage; split <;> rfl
@[simp] theorem initializeMavlinkMessage_sent : (c.initializeMavlinkMessage m).1.sent = c.sent := by
  unfold initializeMavlinkMessage; split <;> rfl

@[simp] theorem respond_requestRepeat : (c.respond m).requestRepeat = c.requestRepeat :=
  initializeMavlinkMessage_requestRepeat c m
@[simp] theorem respond_timerArmed : (c.respond m).timerArmed = c.timerArmed := initializeMavlinkMessage_timerArmed c m
@[simp] theorem respond_updates : (c.respond m).updates = c.updates := initializeMavlinkMessage_updates c m
theorem respond_sent : (c.respond m).sent = c.sent ++ [(c.initializeMavlinkMessage m).2] :=
  congrArg (· ++ [(c.initializeMavlinkMessage m).2]) (initializeMavlinkMessage_sent c m)

@[simp] theorem seekFile_requestRepeat : (c.seekFile offset).requestRepeat = c.requestRepeat := by
  unfold seekFile; split <;> rfl
@[simp] theorem seekFile_updates : (c.seekFile offset).updates = c.updates := by unfold seekFile; split <;> rfl
@[simp] theorem seekFile_sent : (c.seekFile offset).sent = c.sent := by unfold seekFile; split <;> rfl

@[simp] theorem getCurrentPosition_requestRepeat : c.getCurrentPosition.1.requestRepeat = c.requestRepeat := by
  unfold getCurrentPosition; split <;> rfl
@[simp] theorem getCurrentPosition_updates : c.getCurrentPosition.1.updates = c.updates := by
  unfold getCurrentPosition; split <;> rfl
@[simp] theorem getCurrentPosition_sent : c.getCurrentPosition.1.sent = c.sent := by
  unfold getCurrentPosition; split <;> rfl

end

end BftFtpClient

end Esp32Cam.Mav
