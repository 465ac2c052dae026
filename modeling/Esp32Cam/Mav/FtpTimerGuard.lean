/-
  Esp32Cam.Mav.FtpTimerGuard — the resend timer of a client at work.

  A client that is not idle is `Guarded` when its one-shot timer is armed. The handlers
  of the three working states stop the timer before they look at the opcode and the
  session, and arm it again in some of their branches only. `Unguards` are the messages
  that take one of the others: an answer to the request of the state that is neither an
  acknowledgement nor a refusal, or the acknowledgement of a write of another session.

  `guarded_iff`: a run of the client is guarded throughout exactly when none of its
  steps takes such a message in. `another_session_stops_the_timer` is a run that does.
-/

import Esp32Cam.Mav.FtpAnswers

namespace Esp32Cam.Mav.BftFtpClient

open Esp32Cam.Lib Esp32Cam.Bft

def Guarded (c : BftFtpClient) : Prop := c.requestRepeat.state ≠ .idle → c.timerArmed = true

def isAckOrNak (m : FileTransferProtocol) : Bool :=
  m.payload.opcode == Ftp.Op.ack.code || m.payload.opcode == Ftp.Op.nak.code

/-- The answers after which the timer stays stopped, by state. -/
def leavesTimerStopped (c : BftFtpClient) (m : FileTransferProtocol) : Bool :=
  match c.requestRepeat.state with
  | .idle => false
  | .creatingSession => m.payload.reqOpcode == Ftp.Op.openFileWo.code && !isAckOrNak m
  | .transferring => m.payload.reqOpcode == Ftp.Op.writeFile.code &&
      (!isAckOrNak m || m.payload.opcode == Ftp.Op.ack.code && !c.validateIncomingMessageSessionId m)
  | .closingSession => m.payload.reqOpcode == Ftp.Op.terminateSession.code && !isAckOrNak m
  | .max => false

/-- The event is a message to this component that leaves the timer stopped. -/
def Unguards (c : BftFtpClient) : Event → Prop
  | .message (.fileTransferProtocol m) => isTarget m = true ∧ c.leavesTimerStopped m = true
  | _ => False

/-! ## One message -/

section
variable {c : BftFtpClient} {m : FileTransferProtocol}

theorem creatingSession_guarded_iff (h : Guarded c) (hs : c.requestRepeat.state = .creatingSession) :
    Guarded (c.processMavlinkMessageCreatingSession m).1 ↔ c.leavesTimerStopped m = false := by
  have harmed := h (by rw [hs]; nofun)
  unfold processMavlinkMessageCreatingSession leavesTimerStopped isAckOrNak
  rw [hs]
  by_cases hreq : m.payload.reqOpcode = Ftp.Op.openFileWo.code
  · by_cases hack : m.payload.opcode = Ftp.Op.ack.code
    · simp [Guarded, hreq, hack, startOnce]
    · by_cases hnak : m.payload.opcode = Ftp.Op.nak.code
      · simp [Guarded, hreq, hnak, push, handleIdleTransition, Ftp.Op.code]
      · simp [Guarded, hreq, hack, hnak, stopTimer, hs]
  · simp [Guarded, hreq, harmed]

theorem transferring_guarded_iff (h : Guarded c) (hs : c.requestRepeat.state = .transferring) :
    Guarded (c.processMavlinkMessageTransferring m).1 ↔ c.leavesTimerStopped m = false := by
  have harmed := h (by rw [hs]; nofun)
  have hval : c.stopTimer.validateIncomingMessageSessionId m = c.validateIncomingMessageSessionId m := rfl
  unfold processMavlinkMessageTransferring leavesTimerStopped isAckOrNak
  rw [hs]
  by_cases hreq : m.payload.reqOpcode = Ftp.Op.writeFile.code
  · by_cases hack : m.payload.opcode = Ftp.Op.ack.code
    · cases hv : c.validateIncomingMessageSessionId m with
      | false =>
        simp only [hreq, hack, if_true, hval, hv, Bool.not_false]
        simp [Guarded, stopTimer, hs]
      | true => simp [Guarded, hreq, hack, hval, hv, push, startOnce]
    · by_cases hnak : m.payload.opcode = Ftp.Op.nak.code
      · simp [Guarded, hreq, hnak, startOnce, Ftp.Op.code]
      · simp [Guarded, hreq, hack, hnak, stopTimer, hs]
  · simp [Guarded, hreq, harmed]

theorem closingSession_guarded_iff (h : Guarded c) (hs : c.requestRepeat.state = .closingSession) :
    Guarded (c.processMavlinkMessageClosingSession m).1 ↔ c.leavesTimerStopped m = false := by
  have harmed := h (by rw [hs]; nofun)
  unfold processMavlinkMessageClosingSession leavesTimerStopped isAckOrNak
  rw [hs]
  by_cases hreq : m.payload.reqOpcode = Ftp.Op.terminateSession.code
  · by_cases hack : m.payload.opcode = Ftp.Op.ack.code
    · simp [Guarded, hreq, hack, handleIdleTransition]
    · by_cases hnak : m.payload.opcode = Ftp.Op.nak.code
      · simp [Guarded, hreq, hnak, push, handleIdleTransition, Ftp.Op.code]
      · simp [Guarded, hreq, hack, hnak, stopTimer, hs]
  · simp [Guarded, hreq, harmed]

theorem message_guarded_iff (h : Guarded c) :
    Guarded (c.process (.fileTransferProtocol m)).1 ↔ ¬ Unguards c (.message (.fileTransferProtocol m)) := by
  by_cases htarget : isTarget m = true
  · rw [process_target htarget]
    unfold Unguards
    cases hs : c.requestRepeat.state with
    | idle => simp [leavesTimerStopped, hs, Guarded]
    | creatingSession => simpa [htarget] using creatingSession_guarded_iff h hs
    | transferring => simpa [htarget] using transferring_guarded_iff h hs
    | closingSession => simpa [htarget] using closingSession_guarded_iff h hs
    | max => simp [leavesTimerStopped, hs, h]
  · rw [process_not_target htarget]
    exact iff_of_true h fun hu => htarget hu.1

end

/-! ## One event -/

/-- Out of the timer's callback the timer is armed again, or the client is idle. -/
theorem onHrTimer_guarded (c : BftFtpClient) : Guarded c.onHrTimer := by
  unfold onHrTimer onHrTimerResend
  generalize c.stopTimer.onHrTimerAttempt = c
  cases hs : c.requestRepeat.state with
  | idle => intro h; exact absurd hs h
  | creatingSession => exact fun _ => rfl
  | transferring => exact fun _ => rfl
  | closingSession => exact fun _ => rfl
  | max => exact fun _ => rfl

theorem onFileBufferingFinished_guarded {c : BftFtpClient} (h : Guarded c) (fs : SingleBufferRamFileSystem) (file : File) :
    Guarded (c.onFileBufferingFinished fs file) := by
  unfold onFileBufferingFinished
  split
  · exact fun _ => rfl
  · exact h

theorem onDelayedSend_guarded {c : BftFtpClient} (h : Guarded c) : Guarded c.onDelayedSend := by
  unfold onDelayedSend
  split
  · exact h
  · intro hs
    rw [respond_requestRepeat] at hs
    rw [respond_timerArmed]
    exact h hs

theorem step_guarded_iff {c : BftFtpClient} (h : Guarded c) (e : Event) : Guarded (step c e) ↔ ¬ Unguards c e := by
  cases e with
  | onFileBufferingFinished fs file => exact iff_of_true (onFileBufferingFinished_guarded h fs file) nofun
  | message m =>
    cases m with
    | fileTransferProtocol m => exact message_guarded_iff h
    | other msgid => exact iff_of_true h nofun
  | onHrTimer => exact iff_of_true (onHrTimer_guarded c) nofun
  | onDelayedSend => exact iff_of_true (onDelayedSend_guarded h) nofun

/-! ## Runs -/

/-- **Resend-timer guard.** Throughout a run of the client the timer is armed whenever
    the client is not idle, exactly when no step of the run takes in a message that
    leaves the timer stopped. -/
theorem guarded_iff (fs : SingleBufferRamFileSystem) (sessionId : UInt32) (fileOffset : Int) (fileSize : Nat)
    (es : List Event) : Always step Guarded (init fs sessionId fileOffset fileSize) es ↔
      Along step (fun c e => ¬ Unguards c e) (init fs sessionId fileOffset fileSize) es :=
  always_iff_along (I := fun _ => True) (fun _ _ _ _ _ => trivial) (fun _ e _ h => step_guarded_iff h e) trivial
    fun h => absurd rfl h

/-- Session 3 is open; the acknowledgement of a write of session 4 stops the timer for good. -/
theorem another_session_stops_the_timer : ¬ Always step Guarded (init threeByteFs 0 0 0)
    [.onFileBufferingFinished threeByteFs threeByteFile, answer .openFileWo .ack 3, answer .writeFile .ack 4] := by
  intro h
  have hlast := h.last (by decide +kernel)
  revert hlast
  decide +kernel

end Esp32Cam.Mav.BftFtpClient
