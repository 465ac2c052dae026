/-
  Esp32Cam.Mav.FtpSession — the session a transfer runs in.

  The autopilot grants a session with its answer to the request to open the file; the
  id stays in `mavlinkFtpSessionId` until the client is idle again (`InSession`). Every
  WriteFile carries it. A TerminateSession carries the low byte of the message sequence
  number instead, because the packer stores `aSequenceNumber` in the session field.

  `session_identity_iff`: in a run behind the grant, up to the next idle state, every
  request is of the granted session and no message of another session advances the
  transfer, exactly when every TerminateSession is packed while the low byte of the
  sequence number is the session id. `a_refused_write_terminates_another_session` is a
  run in which it is not.
-/

import Esp32Cam.Mav.FtpUpload

namespace Esp32Cam.Mav.BftFtpClient

open Esp32Cam.Lib Esp32Cam.Bft

/-- The message is no WriteFile and no TerminateSession, or is one of the session. -/
def carriesSession (session : UInt8) : MavlinkMessage → Bool
  | .fileTransferProtocol m =>
    (m.payload.opcode != Ftp.Op.writeFile.code && m.payload.opcode != Ftp.Op.terminateSession.code) ||
      m.payload.session == session
  | .other _ => true

def ofAnotherSession (session : UInt8) : Event → Bool
  | .message (.fileTransferProtocol m) => m.payload.session != session
  | _ => false

/-- The step sends requests of the session only, and advances on messages of the session only. -/
structure KeepsSession (session : UInt8) (c : BftFtpClient) (e : Event) : Prop where
  requests : ∀ m ∈ newlySent c e, carriesSession session m = true
  advance : ofAnotherSession session e = true →
    (step c e).requestRepeat.fileOffset = c.requestRepeat.fileOffset ∧
      ∀ m ∈ newlySent c e, isOfOp .writeFile m = false

/-- The sequence number a TerminateSession is packed with in this step, where one is. -/
def terminateSequenceNumber (c : BftFtpClient) : Event → Option UInt16
  | .message (.fileTransferProtocol m) =>
    if c.requestRepeat.state = .transferring then
      if Answers m .writeFile .ack ∧ c.validateIncomingMessageSessionId m ∧ c.atEof then
        some (c.requestRepeat.messageSequenceNumber + 1)
      else if Answers m .writeFile .nak then some c.requestRepeat.messageSequenceNumber
      else none
    else none
  | .onDelayedSend =>
    if c.delayedSends ≠ 0 ∧ c.requestRepeat.state = .closingSession then some c.requestRepeat.messageSequenceNumber else none
  | _ => none

/-- A TerminateSession packed in this step is packed with a sequence number whose low byte is the session. -/
def PacksSession (session : UInt8) (c : BftFtpClient) (e : Event) : Prop :=
  ∀ n, c.terminateSequenceNumber e = some n → n.toUInt8 = session

/-- The granted session is the one the client works in. -/
structure InSession (session : UInt8) (c : BftFtpClient) : Prop where
  state : c.requestRepeat.state = .transferring ∨ c.requestRepeat.state = .closingSession
  sessionId : c.requestRepeat.mavlinkFtpSessionId = session.toUInt32

def Busy (c : BftFtpClient) : Prop := c.requestRepeat.state ≠ .idle

/-! ## The requests -/

section
variable {c : BftFtpClient} {session : UInt8}

theorem carriesSession_writeRequest (h : c.requestRepeat.mavlinkFtpSessionId = session.toUInt32) :
    carriesSession session (.fileTransferProtocol c.writeRequest) = true := by
  simp [carriesSession, writeRequest, FileTransferProtocol.setWriteFileFields, h]

theorem carriesSession_terminateRequest (c : BftFtpClient) (session : UInt8) :
    carriesSession session (.fileTransferProtocol c.terminateRequest) = true ↔
      c.requestRepeat.messageSequenceNumber.toUInt8 = session := by
  simp [carriesSession, terminateRequest, FileTransferProtocol.setTerminateSessionFields, Ftp.Op.code]

theorem isOfOp_terminateRequest : isOfOp .writeFile (.fileTransferProtocol c.terminateRequest) = false := rfl

/-- A message that is taken for an answer of this session is of this session. -/
theorem session_of_valid {m : FileTransferProtocol} (h : c.requestRepeat.mavlinkFtpSessionId = session.toUInt32)
    (hv : c.validateIncomingMessageSessionId m = true) : m.payload.session = session := by
  rw [validateIncomingMessageSessionId, h, beq_iff_eq] at hv
  have := congrArg UInt32.toUInt8 hv
  simpa using this

/-- What a step that sends nothing and leaves the offset does to the session. -/
theorem keepsSession_of_silent {e : Event} (hs : (step c e).sent = c.sent)
    (ho : (step c e).requestRepeat.fileOffset = c.requestRepeat.fileOffset) : KeepsSession session c e := by
  have hn : newlySent c e = [] := newlySent_of_sent (by rw [hs, List.append_nil])
  exact ⟨by rw [hn]; nofun, fun _ => ⟨ho, by rw [hn]; nofun⟩⟩

/-- A step that sends a TerminateSession alone keeps the session exactly when its number is that of the session. -/
theorem keepsSession_iff_of_terminate {e : Event} {w : MavlinkMessage} {n : UInt16} (hnew : newlySent c e = [w])
    (hcarry : carriesSession session w = true ↔ n.toUInt8 = session) (hn : c.terminateSequenceNumber e = some n)
    (hadvance : ofAnotherSession session e = true →
      (step c e).requestRepeat.fileOffset = c.requestRepeat.fileOffset ∧ isOfOp .writeFile w = false) :
    KeepsSession session c e ↔ PacksSession session c e := by
  constructor
  · intro h n' hn'
    obtain rfl := Option.some_inj.mp (hn.symm.trans hn')
    exact hcarry.mp (h.requests w (by rw [hnew]; exact List.mem_singleton_self w))
  · intro h
    refine ⟨fun w' hw => ?_, fun ho => ⟨(hadvance ho).1, fun w' hw => ?_⟩⟩
    · rw [hnew] at hw
      rw [List.mem_singleton.mp hw]
      exact hcarry.mpr (h n hn)
    · rw [hnew] at hw
      rw [List.mem_singleton.mp hw]
      exact (hadvance ho).2

/-- A step that sends a write request alone keeps the session, and packs none. -/
theorem keepsSession_iff_of_write {e : Event} {w : MavlinkMessage} (hnew : newlySent c e = [w])
    (hcarry : carriesSession session w = true) (hnone : c.terminateSequenceNumber e = none)
    (hsession : ofAnotherSession session e = false) : KeepsSession session c e ↔ PacksSession session c e := by
  refine iff_of_true ⟨fun w' hw => ?_, fun ho => ?_⟩ fun n hn => ?_
  · rw [hnew] at hw
    rw [List.mem_singleton.mp hw]
    exact hcarry
  · rw [hsession] at ho
    cases ho
  · rw [hnone] at hn
    cases hn

end

/-! ## One step -/

section
variable {c : BftFtpClient} {session : UInt8} {m : FileTransferProtocol}

/-- An acknowledged write is followed by the next one, or by the end of the session. -/
theorem acknowledged_keepsSession_iff (hin : InSession session c) (hs : c.requestRepeat.state = .transferring)
    (ha : Answers m .writeFile .ack) (hv : c.validateIncomingMessageSessionId m = true)
    (hstep : step c (.message (.fileTransferProtocol m)) = c.writeAcknowledged m) :
    KeepsSession session c (.message (.fileTransferProtocol m)) ↔ PacksSession session c (.message (.fileTransferProtocol m)) := by
  have hsent : (step c (.message (.fileTransferProtocol m))).sent = c.sent ++ [c.writeTaken.request (.fileTransferProtocol m)] := by
    rw [hstep]
    simp only [writeAcknowledged, push, startOnce, respond_sent, initializeMavlinkMessage_eq, writeTaken_eq]
  have hnew := newlySent_of_sent hsent
  have hother : ofAnotherSession session (.message (.fileTransferProtocol m)) = false := by
    simp [ofAnotherSession, session_of_valid hin.sessionId hv]
  cases he : c.atEof with
  | true =>
    have hreq : c.writeTaken.request (.fileTransferProtocol m) = .fileTransferProtocol c.writeTaken.terminateRequest := by
      simp [request, writeTaken_eq, he]
    have hseq : c.writeTaken.requestRepeat.messageSequenceNumber = c.requestRepeat.messageSequenceNumber + 1 := by
      rw [writeTaken_eq]
    have hcarry := carriesSession_terminateRequest c.writeTaken session
    rw [hseq] at hcarry
    have hn : c.terminateSequenceNumber (.message (.fileTransferProtocol m)) =
        some (c.requestRepeat.messageSequenceNumber + 1) := by
      simp [terminateSequenceNumber, hs, ha, hv, he]
    rw [hreq] at hnew
    refine keepsSession_iff_of_terminate hnew hcarry hn fun ho => ?_
    rw [hother] at ho
    cases ho
  | false =>
    have hreq : c.writeTaken.request (.fileTransferProtocol m) = .fileTransferProtocol c.writeTaken.writeRequest := by
      simp [request, writeTaken_eq, he, hs]
    have hsid : c.writeTaken.requestRepeat.mavlinkFtpSessionId = session.toUInt32 := by
      rw [writeTaken_eq]; exact hin.sessionId
    have hnak : ¬ Answers m .writeFile .nak := fun h => ha.op_unique h
    have hnone : c.terminateSequenceNumber (.message (.fileTransferProtocol m)) = none := by
      simp [terminateSequenceNumber, hs, he, hnak]
    rw [hreq] at hnew
    exact keepsSession_iff_of_write hnew (carriesSession_writeRequest hsid) hnone hother

/-- A refused write is followed by the end of the session. -/
theorem refused_keepsSession_iff (hs : c.requestRepeat.state = .transferring) (ha : Answers m .writeFile .nak)
    (hstep : step c (.message (.fileTransferProtocol m)) = c.writeRefused m) :
    KeepsSession session c (.message (.fileTransferProtocol m)) ↔ PacksSession session c (.message (.fileTransferProtocol m)) := by
  have hsent : (step c (.message (.fileTransferProtocol m))).sent = c.sent ++ [.fileTransferProtocol c.terminateRequest] := by
    rw [hstep]
    simp only [writeRefused, startOnce, respond_sent, initializeMavlinkMessage_eq]
    rfl
  have hnew := newlySent_of_sent hsent
  have hack : ¬ Answers m .writeFile .ack := fun h => h.op_unique ha
  have hn : c.terminateSequenceNumber (.message (.fileTransferProtocol m)) = some c.requestRepeat.messageSequenceNumber := by
    simp [terminateSequenceNumber, hs, ha, hack]
  refine keepsSession_iff_of_terminate hnew (carriesSession_terminateRequest c session) hn fun _ => ⟨?_, ?_⟩
  · rw [hstep]
    simp [writeRefused, startOnce, push, stopTimer, handleClosingSessionTransition, handleTransitionCommon]
  · exact isOfOp_terminateRequest

/-- A message packs a TerminateSession only as an answer the client acts on. -/
theorem terminateSequenceNumber_of_not_effective (h : ¬ Effective c m) :
    c.terminateSequenceNumber (.message (.fileTransferProtocol m)) = none := by
  by_cases hs : c.requestRepeat.state = .transferring
  · have haw : awaited c.requestRepeat.state = some .writeFile := by rw [hs]; rfl
    have hack : ¬ (Answers m .writeFile .ack ∧ c.validateIncomingMessageSessionId m ∧ c.atEof) :=
      fun ha => h ⟨_, haw, Or.inr ⟨ha.1, fun _ => ha.2.1⟩⟩
    have hnak : ¬ Answers m .writeFile .nak := fun ha => h ⟨_, haw, Or.inl ha⟩
    simp only [terminateSequenceNumber, hs, hack, hnak, if_true, if_false]
  · simp only [terminateSequenceNumber, hs, if_false]

theorem message_keepsSession_iff (hin : InSession session c) :
    KeepsSession session c (.message (.fileTransferProtocol m)) ↔ PacksSession session c (.message (.fileTransferProtocol m)) := by
  have htakes := process_takes c m
  have hstep : step c (.message (.fileTransferProtocol m)) = (c.process (.fileTransferProtocol m)).1 := rfl
  have hnone : ∀ h : c.terminateSequenceNumber (.message (.fileTransferProtocol m)) = none,
      PacksSession session c (.message (.fileTransferProtocol m)) := fun h n hn => by rw [h] at hn; cases hn
  have hcreating : c.requestRepeat.state ≠ .creatingSession := by
    rcases hin.state with h | h <;> rw [h] <;> decide
  have hclosing : c.requestRepeat.state = .closingSession →
      c.terminateSequenceNumber (.message (.fileTransferProtocol m)) = none := fun h => by
    simp [terminateSequenceNumber, h]
  generalize hc' : (c.process (.fileTransferProtocol m)).1 = c' at *
  cases htakes with
  | nothing hne =>
    exact iff_of_true (keepsSession_of_silent (by rw [hstep]) (by rw [hstep]))
      (hnone (terminateSequenceNumber_of_not_effective hne))
  | stopped hne =>
    exact iff_of_true (keepsSession_of_silent (by rw [hstep]; rfl) (by rw [hstep]; rfl))
      (hnone (terminateSequenceNumber_of_not_effective hne))
  | granted hs _ => exact absurd hs hcreating
  | denied hs _ => exact absurd hs hcreating
  | acknowledged hs ha hv => exact acknowledged_keepsSession_iff hin hs ha hv hstep
  | refused hs ha => exact refused_keepsSession_iff hs ha hstep
  | closed hs _ =>
    exact iff_of_true (keepsSession_of_silent (by rw [hstep]; rfl) (by rw [hstep]; rfl)) (hnone (hclosing hs))
  | notClosed hs _ =>
    exact iff_of_true (keepsSession_of_silent (by rw [hstep]; rfl) (by rw [hstep]; rfl)) (hnone (hclosing hs))

theorem onDelayedSend_keepsSession_iff (hin : InSession session c) :
    KeepsSession session c .onDelayedSend ↔ PacksSession session c .onDelayedSend := by
  have hstep : step c .onDelayedSend = c.onDelayedSend := rfl
  by_cases hd : c.delayedSends = 0
  · have hc : c.onDelayedSend = c := by simp [onDelayedSend, hd]
    refine iff_of_true (keepsSession_of_silent (by rw [hstep, hc]) (by rw [hstep, hc])) fun n hn => ?_
    simp [terminateSequenceNumber, hd] at hn
  have hsent : (step c .onDelayedSend).sent = c.sent ++ [{ c with delayedSends := c.delayedSends - 1 }.request (.other 0)] := by
    rw [hstep, onDelayedSend, if_neg hd, respond_eq]
  have hnew := newlySent_of_sent hsent
  rcases hin.state with hs | hs
  · have hreq : ({ c with delayedSends := c.delayedSends - 1 } : BftFtpClient).request (.other 0) =
        .fileTransferProtocol c.writeRequest := by
      simp only [request, hs]; rfl
    rw [hreq] at hnew
    have hnone : c.terminateSequenceNumber .onDelayedSend = none := by
      simp [terminateSequenceNumber, hs]
    exact keepsSession_iff_of_write hnew (carriesSession_writeRequest hin.sessionId) hnone rfl
  · have hreq : ({ c with delayedSends := c.delayedSends - 1 } : BftFtpClient).request (.other 0) =
        .fileTransferProtocol c.terminateRequest := by
      simp only [request, hs]; rfl
    rw [hreq] at hnew
    have hn : c.terminateSequenceNumber .onDelayedSend = some c.requestRepeat.messageSequenceNumber := by
      simp [terminateSequenceNumber, hd, hs]
    exact keepsSession_iff_of_terminate hnew (carriesSession_terminateRequest c session) hn fun ho => by cases ho

theorem step_keepsSession_iff (hin : InSession session c) (e : Event) :
    KeepsSession session c e ↔ PacksSession session c e := by
  cases e with
  | onFileBufferingFinished fs file =>
    have hstep : step c (.onFileBufferingFinished fs file) = c := by
      rcases hin.state with h | h <;> simp [step, onFileBufferingFinished, h]
    exact iff_of_true (keepsSession_of_silent (by rw [hstep]) (by rw [hstep])) (fun _ h => by cases h)
  | message m =>
    cases m with
    | fileTransferProtocol m => exact message_keepsSession_iff hin
    | other msgid => exact iff_of_true (keepsSession_of_silent rfl rfl) (fun _ h => by cases h)
  | onHrTimer =>
    exact iff_of_true (keepsSession_of_silent (onHrTimer_sent c) (onHrTimer_fileOffset c)) (fun _ h => by cases h)
  | onDelayedSend => exact onDelayedSend_keepsSession_iff hin

/-! ## The session is kept until the client is idle -/

theorem step_inSession (hin : InSession session c) (e : Event) (hb : Busy (step c e)) : InSession session (step c e) := by
  have hcreating : c.requestRepeat.state ≠ .creatingSession := by
    rcases hin.state with h | h <;> rw [h] <;> decide
  have hmax : c.requestRepeat.state ≠ .max := by
    rcases hin.state with h | h <;> rw [h] <;> decide
  cases e with
  | onFileBufferingFinished fs file =>
    have hstep : step c (.onFileBufferingFinished fs file) = c := by
      rcases hin.state with h | h <;> simp [step, onFileBufferingFinished, h]
    rw [hstep]; exact hin
  | message m =>
    cases m with
    | other msgid => exact hin
    | fileTransferProtocol m =>
      have htakes := process_takes c m
      change Busy (c.process (.fileTransferProtocol m)).1 at hb
      change InSession session (c.process (.fileTransferProtocol m)).1
      generalize (c.process (.fileTransferProtocol m)).1 = c' at *
      cases htakes with
      | nothing | stopped => exact ⟨hin.state, hin.sessionId⟩
      | granted hs _ | denied hs _ => exact absurd hs hcreating
      | acknowledged hs _ _ =>
        refine ⟨?_, ?_⟩
        · simp only [writeAcknowledged, push, startOnce, respond_requestRepeat, writeTaken_eq, hs]
          split
          · exact Or.inr rfl
          · exact Or.inl rfl
        · simpa only [writeAcknowledged, push, startOnce, respond_requestRepeat, writeTaken_eq] using hin.sessionId
      | refused hs _ =>
        refine ⟨Or.inr ?_, ?_⟩
        · simp only [writeRefused, startOnce, respond_requestRepeat]; rfl
        · simp only [writeRefused, startOnce, respond_requestRepeat]; exact hin.sessionId
      | closed | notClosed => exact absurd rfl hb
  | onHrTimer =>
    have hfires := onHrTimer_fires c
    change Busy c.onHrTimer at hb
    change InSession session c.onHrTimer
    generalize c.onHrTimer = c' at *
    cases hfires with
    | idle _ hs => exact absurd hs (by rcases hin.state with h | h <;> rw [h] <;> decide)
    | request _ _ => exact ⟨hin.state, hin.sessionId⟩
    | write _ hs =>
      refine ⟨Or.inl ?_, ?_⟩ <;>
        simp [startOnce, resendFileTransferRequest, notifyDelayedSend, handleFailedAttemptCommon, stopTimer, hs,
          hin.sessionId]
    | max _ hs => exact absurd hs hmax
    | givenUp => exact absurd rfl hb
    | closing => exact ⟨Or.inr rfl, hin.sessionId⟩
  | onDelayedSend =>
    change InSession session c.onDelayedSend
    unfold onDelayedSend
    split
    · exact hin
    · exact ⟨by rw [respond_requestRepeat]; exact hin.state, by rw [respond_requestRepeat]; exact hin.sessionId⟩

/-- Behind the grant the client works in the granted session. -/
theorem sessionGranted_inSession (c : BftFtpClient) (m : FileTransferProtocol) :
    InSession m.payload.session (c.sessionGranted m) := by
  constructor
  · exact Or.inl (by simp only [sessionGranted, startOnce, respond_requestRepeat, handleTransferringTransition])
  · simp only [sessionGranted, startOnce, respond_requestRepeat, handleTransferringTransition]

end

/-- **Session identity.** Behind the grant of a session, up to the next idle state: all
    WriteFile and TerminateSession requests are of the granted session, and no message of
    another one advances the transfer, exactly when every TerminateSession is packed at a
    sequence number whose low byte is the session id. -/
theorem session_identity_iff {c : BftFtpClient} {m : FileTransferProtocol} (hc : c.requestRepeat.state = .creatingSession)
    (hm : Answers m .openFileWo .ack) (es : List Event) :
    ((∀ w ∈ newlySent c (.message (.fileTransferProtocol m)), carriesSession m.payload.session w = true) ∧
      AlongWhile step Busy (KeepsSession m.payload.session) (step c (.message (.fileTransferProtocol m))) es) ↔
    AlongWhile step Busy (PacksSession m.payload.session) (step c (.message (.fileTransferProtocol m))) es := by
  have hstep := step_granted hc hm
  have hin := sessionGranted_inSession c m
  have hgrant : ∀ w ∈ newlySent c (.message (.fileTransferProtocol m)), carriesSession m.payload.session w = true := by
    intro w hw
    have hsent : (step c (.message (.fileTransferProtocol m))).sent = c.sent ++ [.fileTransferProtocol
        (c.stopTimer.handleSuccessfulAttemptCommon.handleTransferringTransition m.payload.session.toUInt32).writeRequest] := by
      rw [hstep]
      simp only [sessionGranted, startOnce, respond_eq]
      simp [request, handleTransferringTransition, handleTransitionCommon, handleSuccessfulAttemptCommon, stopTimer]
    rw [newlySent_of_sent hsent] at hw
    obtain rfl := List.mem_singleton.mp hw
    exact carriesSession_writeRequest rfl
  rw [hstep]
  exact (and_iff_right hgrant).trans (alongWhile_iff (I := InSession m.payload.session) (fun c e hi _ hb => step_inSession hi e hb)
    (fun c e hi _ => step_keepsSession_iff hi e) fun _ => hin)

/-- Session 3 is granted to a client that waits for it, and a write is acknowledged. -/
theorem session_identity_of_session_three :
    ((∀ w ∈ newlySent waitingClient (answer .openFileWo .ack 3), carriesSession 3 w = true) ∧
      AlongWhile step Busy (KeepsSession 3) (step waitingClient (answer .openFileWo .ack 3)) [answer .writeFile .ack 3]) ↔
    AlongWhile step Busy (PacksSession 3) (step waitingClient (answer .openFileWo .ack 3)) [answer .writeFile .ack 3] :=
  session_identity_iff (m := answerMessage .openFileWo .ack 3) (by decide) (by decide) _

/-- Session 3 is granted and its first write refused: the session that is closed is session 1. -/
theorem a_refused_write_terminates_another_session :
    ¬ ((∀ w ∈ newlySent waitingClient (answer .openFileWo .ack 3), carriesSession 3 w = true) ∧
      AlongWhile step Busy (KeepsSession 3) (step waitingClient (answer .openFileWo .ack 3)) [answer .writeFile .nak 3]) := by
  intro h
  rcases h with ⟨_, h⟩
  have hkeeps := (h (by unfold Busy; decide +kernel)).1.requests
  have hnew : newlySent (step waitingClient (answer .openFileWo .ack 3)) (answer .writeFile .nak 3) =
      [.fileTransferProtocol { targetSystem := 1, targetComponent := 1,
                               payload := { seqNumber := 1, session := 1, opcode := 1 } }] := by decide +kernel
  rw [hnew] at hkeeps
  exact absurd (hkeeps _ (List.mem_singleton_self _)) (by decide)

end Esp32Cam.Mav.BftFtpClient
