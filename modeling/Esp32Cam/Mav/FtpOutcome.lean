/-
  Esp32Cam.Mav.FtpOutcome — what a transfer reports of its outcome.

  A transfer begins with a buffered file and ends when the client is idle again. Its
  events are those of the client; a message among them says which request it answers, so
  that the writes whose acknowledgements have come are known (`acknowledged`).

  `outcome_iff`: the transfer reports one terminal event, the last of its events, and
  `done` only of a file acknowledged to its last byte, exactly when no write is refused
  and the transfer is not given up by the timer, and the acknowledgement that closes the
  session comes for a file that one acknowledged write has carried whole (`Whole`). The
  size the client takes a file for is zero, so no longer file is ever closed otherwise;
  and the session of a failed transfer is closed like that of a finished one.
  `a_refused_transfer_is_reported_done` is a run of that kind.
-/

import Esp32Cam.Mav.FtpWrites

namespace Esp32Cam.Mav

open Esp32Cam.Lib Esp32Cam.Bft BftFtpClient

structure Transfer where
  client : BftFtpClient
  /-- The writes whose acknowledgements have come. -/
  acknowledged : List FileTransferProtocol

namespace Transfer

/-- An event of the client; for an answer, the place of its request among the messages sent. -/
structure Event where
  event : BftFtpClient.Event
  request : Option Nat := none

def acknowledgedWrite (t : Transfer) (e : Event) : Option FileTransferProtocol :=
  match e.event, e.request with
  | .message (.fileTransferProtocol m), some k =>
    if Answers m .writeFile .ack then
      match t.client.sent[k]? with
      | some (.fileTransferProtocol w) => if isOfOp .writeFile (.fileTransferProtocol w) then some w else none
      | _ => none
    else none
  | _, _ => none

def step (t : Transfer) (e : Event) : Transfer where
  client := BftFtpClient.step t.client e.event
  acknowledged := t.acknowledged ++ (t.acknowledgedWrite e).toList

/-- An idle client takes the file; its logs begin with the transfer. -/
def begin (c : BftFtpClient) (b : BufferedFile) : Transfer :=
  ⟨BftFtpClient.step { c with sent := [], updates := [] } (.onFileBufferingFinished b.fs b.file), []⟩

def Idle (t : Transfer) : Prop := t.client.requestRepeat.state = .idle

instance : DecidablePred Idle := fun t => inferInstanceAs (Decidable (t.client.requestRepeat.state = .idle))

/-- One terminal event, the last; `done` only of an acknowledged file. -/
structure Reported (bytes : List UInt8) (t : Transfer) : Prop where
  one : ∃ us u, t.client.updates = us ++ [u] ∧ u.isTerminal = true ∧ ∀ u' ∈ us, u'.isTerminal = false
  done : .done ∈ t.client.updates → ∀ i < bytes.length, ∃ w ∈ t.acknowledged, Carries bytes w i

/-- The write at the beginning of the file, which carries bytes of it to the last. -/
structure CarriesWhole (bytes : List UInt8) (w : FileTransferProtocol) : Prop where
  agrees : carriesChunk bytes (.fileTransferProtocol w) = true
  offset : w.payload.offset = 0
  reach : bytes.length ≤ reach w

/-- The file is empty, or a write that carried it whole is acknowledged. -/
def Whole (bytes : List UInt8) (t : Transfer) : Prop := bytes = [] ∨ ∃ w ∈ t.acknowledged, CarriesWhole bytes w

/-- The transfer fails in this step: a write is refused, or the attempts are exhausted. -/
def Fails (t : Transfer) (e : Event) : Prop :=
  t.client.requestRepeat.state = .transferring ∧
    (e.event = .onHrTimer ∧ knMaxAttempts ≤ t.client.requestRepeat.iAttempt ∨
      ∃ m, e.event = .message (.fileTransferProtocol m) ∧ Answers m .writeFile .nak)

def Closes (e : Event) : Prop := ∃ m, e.event = .message (.fileTransferProtocol m) ∧ Answers m .terminateSession .ack

/-- The run ends with the acknowledged end of the session. -/
def ClosedLast (es : List Event) : Prop := ∃ e ∈ es.getLast?, Closes e

/-! ## The end of a transfer -/

section
variable {c : BftFtpClient} {m : FileTransferProtocol}

/-- A busy client that becomes idle reports one more event, a terminal one; it is `done`
    where the session is closed with an acknowledgement. -/
theorem takes_to_idle {c' : BftFtpClient} (ht : Takes c m c') (hs : c.requestRepeat.state ≠ .idle)
    (hi : c'.requestRepeat.state = .idle) : ∃ u, c'.updates = c.updates ++ [u] ∧ u.isTerminal = true ∧
      (u = .done ↔ Answers m .terminateSession .ack) ∧ (u = .done → c.requestRepeat.state = .closingSession) := by
  cases ht with
  | nothing | stopped => exact absurd hi hs
  | granted => simp [sessionGranted_eq, startOnce, granted_state] at hi
  | denied hst hm =>
    exact ⟨_, rfl, rfl, ⟨fun h => (by cases h), fun h => (h.op_unique hm).elim⟩, fun h => (by cases h)⟩
  | acknowledged hst =>
    exfalso
    cases he : c.atEof with
    | true => simp [writeAcknowledged, push, startOnce, writeTaken_eq, he] at hi
    | false => simp [writeAcknowledged, push, startOnce, writeTaken_eq, he, hst] at hi
  | refused => simp [writeRefused, startOnce, handleClosingSessionTransition] at hi
  | closed hst hm => exact ⟨_, rfl, rfl, ⟨fun _ => hm, fun _ => rfl⟩, fun _ => hst⟩
  | notClosed _ hm =>
    exact ⟨_, rfl, rfl, ⟨fun h => (by cases h), fun h => (h.op_unique hm).elim⟩, fun h => (by cases h)⟩

theorem fires_to_idle {c' : BftFtpClient} (ht : Fires c c') (hs : c.requestRepeat.state ≠ .idle)
    (hi : c'.requestRepeat.state = .idle) : c'.updates = c.updates ++ [attemptFailed] := by
  cases ht with
  | idle | request | max => exact absurd hi hs
  | write _ h =>
    simp [startOnce, resendFileTransferRequest, notifyDelayedSend, handleFailedAttemptCommon, stopTimer, h] at hi
  | givenUp => rfl
  | closing => cases hi

theorem onDelayedSend_state (c : BftFtpClient) : c.onDelayedSend.requestRepeat = c.requestRepeat := by
  unfold onDelayedSend
  split
  · rfl
  · exact respond_requestRepeat _ _

theorem step_to_idle {e : Event} (hs : c.requestRepeat.state ≠ .idle)
    (hi : (BftFtpClient.step c e.event).requestRepeat.state = .idle) :
    ∃ u, (BftFtpClient.step c e.event).updates = c.updates ++ [u] ∧ u.isTerminal = true ∧ (u = .done ↔ Closes e) ∧
      (u = .done → c.requestRepeat.state = .closingSession) := by
  unfold Closes
  cases he : e.event with
  | onFileBufferingFinished fs file =>
    rw [he, step_not_accepted (decide_eq_false hs)] at hi
    exact absurd hi hs
  | message m =>
    rw [he] at hi
    cases m with
    | other => exact absurd hi hs
    | fileTransferProtocol m =>
      obtain ⟨u, hu, hterm, hdone, hst⟩ := takes_to_idle (process_takes c m) hs hi
      refine ⟨u, hu, hterm, hdone.trans ⟨fun h => ⟨m, rfl, h⟩, ?_⟩, hst⟩
      intro h
      rcases h with ⟨m', heq, h⟩
      cases heq
      exact h
  | onHrTimer =>
    rw [he] at hi
    exact ⟨_, fires_to_idle (onHrTimer_fires c) hs hi, rfl, ⟨nofun, fun ⟨_, h, _⟩ => by cases h⟩, nofun⟩
  | onDelayedSend =>
    rw [he, BftFtpClient.step, onDelayedSend_state] at hi
    exact absurd hi hs

end

/-! ## A transfer that has reported no end -/

/-- The writes of the transfer begin at the beginning of the file. -/
def FirstChunk (bytes : List UInt8) (c : BftFtpClient) : Prop :=
  ∀ w, .fileTransferProtocol w ∈ c.sent → isOfOp .writeFile (.fileTransferProtocol w) = true →
    w.payload.offset = 0 ∧ reach w ≤ bytes.length

structure Going (bytes : List UInt8) (t : Transfer) : Prop where
  busy : t.client.requestRepeat.state ≠ .idle
  notMax : t.client.requestRepeat.state ≠ .max
  hasFile : HasFile t.client
  writes : WritesSent 0 t.client
  content : t.client.content = bytes
  /-- The size is taken for zero. -/
  fileSize : t.client.requestRepeat.state = .transferring → t.client.requestRepeat.fileSize = 0
  quiet : ∀ u ∈ t.client.updates, u.isTerminal = false
  closing : t.client.requestRepeat.state = .closingSession → FirstChunk bytes t.client
  acknowledged : ∀ w ∈ t.acknowledged, .fileTransferProtocol w ∈ t.client.sent ∧
    isOfOp .writeFile (.fileTransferProtocol w) = true

/-- A transfer that has reported its end, and is still to close its session. -/
structure Ended (t : Transfer) : Prop where
  state : t.client.requestRepeat.state = .closingSession
  reported : ∃ u ∈ t.client.updates, u.isTerminal = true

section
variable {c : BftFtpClient} {m : FileTransferProtocol} {bytes : List UInt8}

/-- The client takes its file for finished only where no write has taken it off its beginning. -/
theorem firstChunk_of_atEof (hf : HasFile c) (hw : WritesSent 0 c) (hs : c.requestRepeat.state = .transferring)
    (hsize : c.requestRepeat.fileSize = 0) (he : c.atEof = true) : FirstChunk c.content c := by
  obtain ⟨file, o, hup, ho, hle⟩ := hf.uploading hs
  rw [hup.atEof_eq, hsize, beq_iff_eq] at he
  have hoff : c.offset = 0 := by rw [offset_eq ho]; omega
  intro w hmem hwrite
  have hrange := hw.writes hs w (by rw [List.drop_zero]; exact hmem) hwrite
  rw [window, hoff] at hrange
  have hreach : reach w = w.payload.offset + w.payload.size.toNat := rfl
  omega

/-- What the client makes of a message that ends no transfer. -/
theorem takes_going {c' : BftFtpClient} (ht : Takes c m c') (hf : HasFile c) (hw : WritesSent 0 c)
    (hmax : c.requestRepeat.state ≠ .max) (hsize : c.requestRepeat.state = .transferring → c.requestRepeat.fileSize = 0)
    (hquiet : ∀ u ∈ c.updates, u.isTerminal = false)
    (hclosing : c.requestRepeat.state = .closingSession → FirstChunk c.content c)
    (hfail : ¬ (c.requestRepeat.state = .transferring ∧ Answers m .writeFile .nak)) (hi : c'.requestRepeat.state ≠ .idle) :
    c'.requestRepeat.state ≠ .max ∧ (c'.requestRepeat.state = .transferring → c'.requestRepeat.fileSize = 0) ∧
      (∀ u ∈ c'.updates, u.isTerminal = false) ∧
      (c'.requestRepeat.state = .closingSession → FirstChunk c.content c') := by
  cases ht with
  | nothing | stopped => exact ⟨hmax, hsize, hquiet, hclosing⟩
  | denied | closed | notClosed => exact absurd rfl hi
  | refused hs hm => exact absurd ⟨hs, hm⟩ hfail
  | granted hs hm =>
    obtain ⟨file, hfile, hh⟩ := hf.held (Or.inl hs)
    obtain ⟨_, _, hsize', _⟩ := granted_uploading (m := m) hfile hh
    refine ⟨?_, fun _ => ?_, ?_, fun h => ?_⟩
    · simp [sessionGranted_eq, startOnce, granted_state]
    · simpa [sessionGranted_eq, startOnce] using hsize'
    · have hupd : (c.sessionGranted m).updates = c.updates := by
        simp only [sessionGranted_eq, startOnce, respond_updates, granted, handleTransferringTransition,
          getCurrentPosition_updates, seekFile_updates]
        rfl
      rw [hupd]
      exact hquiet
    · simp [sessionGranted_eq, startOnce, granted_state] at h
  | acknowledged hs hm hv =>
    have hupd : (c.writeAcknowledged m).updates = c.updates ++
        [.inProgress (uint32 c.writeTaken.requestRepeat.fileOffset) c.writeTaken.requestRepeat.fileSize] := by
      simp only [writeAcknowledged, push, startOnce, respond_updates, respond_requestRepeat, writeTaken_eq]
    have hsize' : (c.writeAcknowledged m).requestRepeat.fileSize = c.requestRepeat.fileSize := by
      simp [writeAcknowledged, push, startOnce, writeTaken_eq]
    refine ⟨?_, fun _ => by rw [hsize']; exact hsize hs, ?_, fun hc => ?_⟩
    · cases he : c.atEof <;> simp [writeAcknowledged, push, startOnce, writeTaken_eq, he, hs]
    · intro u hu
      rw [hupd] at hu
      rcases List.mem_append.mp hu with hu | hu
      · exact hquiet u hu
      · rw [List.mem_singleton.mp hu]; rfl
    · cases he : c.atEof with
      | false => simp [writeAcknowledged, push, startOnce, writeTaken_eq, he, hs] at hc
      | true =>
        have hfirst := firstChunk_of_atEof hf hw hs (hsize hs) he
        have hreq : c.writeTaken.request (.fileTransferProtocol m) = .fileTransferProtocol c.writeTaken.terminateRequest := by
          simp [request, writeTaken_eq, he]
        intro w hmem hwrite
        rw [writeAcknowledged_sent, hreq] at hmem
        rcases List.mem_append.mp hmem with hmem | hmem
        · exact hfirst w hmem hwrite
        · rw [List.mem_singleton.mp hmem] at hwrite
          cases hwrite

/-- What the timer does that ends no transfer. -/
theorem fires_going {c' : BftFtpClient} (ht : Fires c c')
    (hfail : ¬ (c.requestRepeat.state = .transferring ∧ knMaxAttempts ≤ c.requestRepeat.iAttempt))
    (hmax : c.requestRepeat.state ≠ .max) (hi : c'.requestRepeat.state ≠ .idle) :
    c'.requestRepeat.state = c.requestRepeat.state ∧ c'.requestRepeat.fileSize = c.requestRepeat.fileSize ∧
      c'.updates = c.updates ∧ c'.sent = c.sent := by
  cases ht with
  | idle | request | max => exact ⟨rfl, rfl, rfl, rfl⟩
  | write => simp [startOnce, resendFileTransferRequest, notifyDelayedSend, handleFailedAttemptCommon, stopTimer]
  | givenUp => exact absurd rfl hi
  | closing hlt hs =>
    rcases hs with hs | hs
    · exact absurd ⟨hs, hlt⟩ hfail
    · exact absurd hs hmax

/-- A queued message of a session to be closed is no write. -/
theorem onDelayedSend_firstChunk (hs : c.requestRepeat.state = .closingSession) (h : FirstChunk bytes c) :
    FirstChunk bytes c.onDelayedSend := by
  by_cases hd : c.delayedSends = 0
  · rw [onDelayedSend, if_pos hd]
    exact h
  intro w hmem hwrite
  have hreq : ({ c with delayedSends := c.delayedSends - 1 } : BftFtpClient).request (.other 0) =
      .fileTransferProtocol c.terminateRequest := by
    simp only [request, hs]; rfl
  rw [onDelayedSend_sent hd, hreq] at hmem
  rcases List.mem_append.mp hmem with hmem | hmem
  · exact h w hmem hwrite
  · rw [List.mem_singleton.mp hmem] at hwrite
    cases hwrite

theorem accepts_of_busy (h : c.requestRepeat.state ≠ .idle) (e : BftFtpClient.Event) : accepts c e = false := by
  cases e with
  | onFileBufferingFinished => exact decide_eq_false h
  | message | onHrTimer | onDelayedSend => rfl

theorem step_of_busy (h : c.requestRepeat.state ≠ .idle) (fs : SingleBufferRamFileSystem) (file : File) :
    BftFtpClient.step c (.onFileBufferingFinished fs file) = c := step_not_accepted (accepts_of_busy h _)

end

section
variable {t : Transfer} {e : Event} {bytes : List UInt8}

theorem acknowledgedWrite_mem {w : FileTransferProtocol} (h : t.acknowledgedWrite e = some w) :
    .fileTransferProtocol w ∈ t.client.sent ∧ isOfOp .writeFile (.fileTransferProtocol w) = true := by
  unfold acknowledgedWrite at h
  split at h
  · split at h
    · split at h
      · split at h
        · rename_i hsent hwrite
          obtain rfl := Option.some_inj.mp h
          exact ⟨List.mem_of_getElem? hsent, hwrite⟩
        · cases h
      · cases h
    · cases h
  · cases h

theorem step_acknowledged_mem {w : FileTransferProtocol}
    (h : ∀ w ∈ t.acknowledged, .fileTransferProtocol w ∈ t.client.sent ∧ isOfOp .writeFile (.fileTransferProtocol w) = true)
    (hw : w ∈ (step t e).acknowledged) :
    .fileTransferProtocol w ∈ t.client.sent ∧ isOfOp .writeFile (.fileTransferProtocol w) = true := by
  rcases List.mem_append.mp hw with hw | hw
  · exact h w hw
  · exact acknowledgedWrite_mem (Option.mem_toList.mp hw)

/-- A step that neither fails the transfer nor ends it. -/
theorem going_step (h : Going bytes t) (hf : ¬ Fails t e) (hi : ¬ Idle (step t e)) : Going bytes (step t e) := by
  have hfacts : (step t e).client.requestRepeat.state ≠ .max ∧
      ((step t e).client.requestRepeat.state = .transferring → (step t e).client.requestRepeat.fileSize = 0) ∧
      (∀ u ∈ (step t e).client.updates, u.isTerminal = false) ∧
      ((step t e).client.requestRepeat.state = .closingSession → FirstChunk t.client.content (step t e).client) := by
    have hclosing : t.client.requestRepeat.state = .closingSession → FirstChunk t.client.content t.client := by
      rw [h.content]; exact h.closing
    unfold Idle at hi
    unfold Fails at hf
    simp only [step] at hi ⊢
    cases he : e.event with
    | onFileBufferingFinished fs file =>
      rw [step_of_busy h.busy]
      exact ⟨h.notMax, h.fileSize, h.quiet, hclosing⟩
    | message m =>
      rw [he] at hi
      cases m with
      | other => exact ⟨h.notMax, h.fileSize, h.quiet, hclosing⟩
      | fileTransferProtocol m =>
        exact takes_going (process_takes t.client m) h.hasFile h.writes h.notMax h.fileSize h.quiet hclosing
          (fun hm => hf ⟨hm.1, Or.inr ⟨m, he, hm.2⟩⟩) hi
    | onHrTimer =>
      rw [he] at hi
      obtain ⟨hs, hsize, hupd, hsent⟩ := fires_going (onHrTimer_fires t.client) (fun ht => hf ⟨ht.1, Or.inl ⟨he, ht.2⟩⟩) h.notMax hi
      rw [show BftFtpClient.step t.client .onHrTimer = t.client.onHrTimer from rfl, hs, hsize, hupd]
      refine ⟨h.notMax, h.fileSize, h.quiet, fun hc w hmem => ?_⟩
      rw [hsent] at hmem
      exact hclosing hc w hmem
    | onDelayedSend =>
      have hupd : t.client.onDelayedSend.updates = t.client.updates := by
        unfold onDelayedSend
        split
        · rfl
        · exact respond_updates _ _
      rw [show BftFtpClient.step t.client .onDelayedSend = t.client.onDelayedSend from rfl, onDelayedSend_state, hupd]
      exact ⟨h.notMax, h.fileSize, h.quiet, fun hc => onDelayedSend_firstChunk hc (hclosing hc)⟩
  have hacc := accepts_of_busy h.busy e.event
  obtain ⟨hmax, hsize, hquiet, hclosing⟩ := hfacts
  refine ⟨hi, hmax, ?_, step_writesSent h.hasFile h.writes hacc, (step_content hacc).trans h.content, hsize, hquiet, ?_, ?_⟩
  · exact step_hasFile h.hasFile fun htrue => absurd (htrue.symm.trans hacc) nofun
  · rw [← h.content]; exact hclosing
  · intro w hw
    obtain ⟨hmem, hwrite⟩ := step_acknowledged_mem h.acknowledged hw
    exact ⟨(step_sent_grows t.client e.event).subset hmem, hwrite⟩

/-- A failure is reported, and the session is closed behind it. -/
theorem fails_step (h : Fails t e) : Ended (step t e) := by
  obtain ⟨hs, ⟨he, hlt⟩ | ⟨m, he, hm⟩⟩ := h
  · have hstep : (step t e).client = t.client.onHrTimer := by simp only [step, he]; rfl
    have hfires := onHrTimer_fires t.client
    refine ⟨?_, attemptFailed, ?_, rfl⟩ <;> rw [hstep] <;> generalize t.client.onHrTimer = c' at hfires ⊢
    all_goals cases hfires with
      | idle h | request h | write h | max h => omega
      | givenUp _ h => rw [hs] at h; rcases h with h | h | h <;> cases h
      | closing => simp [startOnce, notifyDelayedSend, push, handleClosingSessionTransition]
  · have hproc := process_target (c := t.client) hm.target
    simp only [hs, processMavlinkMessageTransferring, hm.reqOpcode, if_true, hm.opcode] at hproc
    have hstep : (step t e).client = t.client.writeRefused m := by
      simp only [step, he, BftFtpClient.step]
      exact congrArg Prod.fst hproc
    refine ⟨?_, .failed "Could not transfer a file chunk, got FAILED response", ?_, rfl⟩ <;> rw [hstep]
    · simp [writeRefused, startOnce, handleClosingSessionTransition]
    · simp [writeRefused, startOnce, handleClosingSessionTransition, handleTransitionCommon, push]

/-- A transfer that has ended reports again when its session is closed. -/
theorem ended_step (h : Ended t) (hi : ¬ Idle (step t e)) : Ended (step t e) := by
  have hbusy : t.client.requestRepeat.state ≠ .idle := by rw [h.state]; nofun
  have hkeep : (step t e).client.requestRepeat.state = t.client.requestRepeat.state ∧
      (step t e).client.updates = t.client.updates := by
    unfold Idle at hi
    simp only [step] at hi ⊢
    cases he : e.event with
    | onFileBufferingFinished fs file => rw [step_of_busy hbusy]; exact ⟨rfl, rfl⟩
    | message m =>
      rw [he] at hi
      cases m with
      | other => exact ⟨rfl, rfl⟩
      | fileTransferProtocol m =>
        have htakes := process_takes t.client m
        rw [show BftFtpClient.step t.client (.message (.fileTransferProtocol m)) =
          (t.client.process (.fileTransferProtocol m)).1 from rfl] at hi ⊢
        generalize (t.client.process (.fileTransferProtocol m)).1 = c' at *
        cases htakes with
        | nothing | stopped => exact ⟨rfl, rfl⟩
        | denied | closed | notClosed => exact absurd rfl hi
        | granted hs | acknowledged hs | refused hs => rw [h.state] at hs; cases hs
    | onHrTimer =>
      rw [he] at hi
      obtain ⟨hs, _, hupd, _⟩ := fires_going (onHrTimer_fires t.client) (by rw [h.state]; nofun) (by rw [h.state]; nofun) hi
      exact ⟨hs, hupd⟩
    | onDelayedSend =>
      rw [show BftFtpClient.step t.client .onDelayedSend = t.client.onDelayedSend from rfl, onDelayedSend_state]
      refine ⟨rfl, ?_⟩
      unfold onDelayedSend
      split
      · rfl
      · exact respond_updates _ _
  exact ⟨by rw [hkeep.1]; exact h.state, by rw [hkeep.2]; exact h.reported⟩

/-- One terminal event more is one too many. -/
theorem ended_not_reported (h : Ended t) (hi : Idle (step t e)) : ¬ Reported bytes (step t e) := by
  intro h
  rcases h with ⟨⟨us, u, hupd, _, hquiet⟩, _⟩
  obtain ⟨u', hupd', _⟩ := step_to_idle (c := t.client) (by rw [h.state]; nofun) hi
  obtain ⟨rfl, _⟩ := List.append_inj' (hupd'.symm.trans hupd) rfl
  obtain ⟨v, hv, hterm⟩ := h.reported
  rw [hquiet v hv] at hterm
  cases hterm

theorem ended_run {es : List Event} (h : Ended t) (hes : EndsAt step Idle t es) : ¬ Reported bytes (run step t es) := by
  induction es generalizing t with
  | nil => exact absurd (h.state.symm.trans hes) nofun
  | cons e es ih =>
    by_cases hi : Idle (step t e)
    · cases es with
      | nil => exact ended_not_reported h hi
      | cons e' es => exact absurd hi hes.2.1
    · exact ih (ended_step h hi) hes.2

/-- A file whose writes begin at its beginning is acknowledged by one of them, if it is. -/
theorem whole_iff (hf : FirstChunk bytes t.client) (ha : ∀ w ∈ t.acknowledged, .fileTransferProtocol w ∈ t.client.sent ∧
    isOfOp .writeFile (.fileTransferProtocol w) = true) :
    (∀ i < bytes.length, ∃ w ∈ t.acknowledged, Carries bytes w i) ↔ Whole bytes t := by
  constructor
  · intro h
    by_cases hne : bytes = []
    · exact Or.inl hne
    have hpos : 0 < bytes.length := List.length_pos_iff.mpr hne
    obtain ⟨w, hw, hcarry⟩ := h (bytes.length - 1) (by omega)
    obtain ⟨hmem, hwrite⟩ := ha w hw
    have hlast := hcarry.reach
    exact Or.inr ⟨w, hw, hcarry.agrees, (hf w hmem hwrite).1, by omega⟩
  · intro h i hi
    rcases h with rfl | ⟨w, hw, hwhole⟩
    · exact absurd hi (Nat.not_lt_zero i)
    · refine ⟨w, hw, (ha w hw).2, hwhole.agrees, by rw [hwhole.offset]; exact Nat.zero_le i, ?_⟩
      exact Nat.lt_of_lt_of_le hi hwhole.reach

/-- The step that ends a transfer reports its one terminal event. -/
theorem going_end (h : Going bytes t) (hi : Idle (step t e)) :
    ¬ Fails t e ∧ (Reported bytes (step t e) ↔ (Closes e → Whole bytes (step t e))) := by
  refine ⟨fun hf => ?_, ?_⟩
  · have hs := (fails_step hf).state
    exact absurd (hs.symm.trans hi) nofun
  obtain ⟨u, hupd, hterm, hdone, hst⟩ := step_to_idle h.busy hi
  have hone : ∃ us u, (step t e).client.updates = us ++ [u] ∧ u.isTerminal = true ∧ ∀ u' ∈ us, u'.isTerminal = false :=
    ⟨_, u, hupd, hterm, h.quiet⟩
  have hnotyet : .done ∉ t.client.updates := fun hmem => absurd (h.quiet _ hmem) nofun
  have hmem : .done ∈ (step t e).client.updates ↔ Closes e := by
    rw [show (step t e).client.updates = _ from hupd, List.mem_append, List.mem_singleton, eq_comm, ← hdone]
    exact ⟨fun hm => hm.resolve_left hnotyet, Or.inr⟩
  have hack : ∀ w ∈ (step t e).acknowledged, .fileTransferProtocol w ∈ (step t e).client.sent ∧
      isOfOp .writeFile (.fileTransferProtocol w) = true := fun w hw =>
    let ⟨hw', hwrite⟩ := step_acknowledged_mem h.acknowledged hw
    ⟨(step_sent_grows t.client e.event).subset hw', hwrite⟩
  -- the session is closed, so nothing more is sent in this step
  have hwhole : Closes e → ((∀ i < bytes.length, ∃ w ∈ (step t e).acknowledged, Carries bytes w i) ↔ Whole bytes (step t e)) := by
    intro hc
    have hclosing := hst (hdone.mpr hc)
    refine whole_iff ?_ hack
    obtain ⟨m, he, hm⟩ := hc
    have hsent : (step t e).client.sent = t.client.sent := by
      have hproc := process_target (c := t.client) hm.target
      simp only [hclosing, processMavlinkMessageClosingSession, hm.reqOpcode, hm.opcode, if_true] at hproc
      simp only [step, he, BftFtpClient.step]
      rw [hproc]
      rfl
    intro w hw
    rw [hsent] at hw
    exact h.closing hclosing w hw
  constructor
  · intro hr hc
    exact (hwhole hc).mp (hr.done (hmem.mpr hc))
  · intro hw
    exact ⟨hone, fun hd => (hwhole (hmem.mp hd)).mpr (hw (hmem.mp hd))⟩

theorem closedLast_cons {es : List Event} (e e' : Event) : ClosedLast (e :: e' :: es) ↔ ClosedLast (e' :: es) := by
  unfold ClosedLast
  rw [List.getLast?_cons_cons]

theorem closedLast_singleton (e : Event) : ClosedLast [e] ↔ Closes e := by simp [ClosedLast]

theorem going_outcome_iff {es : List Event} (h : Going bytes t) (hes : EndsAt step Idle t es) :
    Reported bytes (run step t es) ↔
      Along step (fun t e => ¬ Fails t e) t es ∧ (ClosedLast es → Whole bytes (run step t es)) := by
  induction es generalizing t with
  | nil => exact absurd hes h.busy
  | cons e es ih =>
    cases es with
    | nil =>
      obtain ⟨hf, hiff⟩ := going_end h hes.2
      rw [closedLast_singleton]
      exact hiff.trans ⟨fun hw => ⟨⟨hf, trivial⟩, hw⟩, fun hw => hw.2⟩
    | cons e' es =>
      by_cases hf : Fails t e
      · exact iff_of_false (ended_run (t := step t e) (fails_step hf) hes.2) fun hw => hw.1.1 hf
      · rw [closedLast_cons, run_cons, ih (going_step h hf hes.2.1) hes.2]
        exact ⟨fun hw => ⟨⟨hf, hw.1⟩, hw.2⟩, fun hw => ⟨hw.1.2, hw.2⟩⟩

end

/-! ## Runs -/

theorem begin_going {c : BftFtpClient} (hc : c.requestRepeat.state = .idle) (b : BufferedFile) :
    Going (begin c b).client.content (begin c b) := by
  have hacc : accepts { c with sent := [], updates := [] } (.onFileBufferingFinished b.fs b.file) = true := decide_eq_true hc
  have hf : HasFile (begin c b).client :=
    step_hasFile (c := { c with sent := [], updates := [] }) (hasFile_of_closed (Or.inl hc)) fun _ =>
      show Handover (.onFileBufferingFinished b.fs b.file) from b.isOpen
  have hw : WritesSent 0 (begin c b).client := step_writesSent_of_accepts hacc
  have hs : (begin c b).client.requestRepeat.state = .creatingSession ∧ (begin c b).client.updates = [] := by
    unfold begin
    rw [step_accepted hacc]
    exact ⟨rfl, rfl⟩
  refine ⟨?_, ?_, hf, hw, rfl, ?_, ?_, ?_, nofun⟩
  · rw [hs.1]; nofun
  · rw [hs.1]; nofun
  · rw [hs.1]; nofun
  · rw [hs.2]; nofun
  · rw [hs.1]; nofun

/-- **Outcome of a transfer.** From an accepted file back to the idle state. -/
theorem outcome_iff {c : BftFtpClient} (hc : c.requestRepeat.state = .idle) (b : BufferedFile) {es : List Event}
    (hes : EndsAt step Idle (begin c b) es) : Reported (begin c b).client.content (run step (begin c b) es) ↔
      Along step (fun t e => ¬ Fails t e) (begin c b) es ∧
        (ClosedLast es → Whole (begin c b).client.content (run step (begin c b) es)) :=
  going_outcome_iff (begin_going hc b) hes

def threeBytes : BufferedFile := ⟨threeByteFs, threeByteFile, _, _, threeByte_holds⟩

def deniedSession : List Event := [{ event := .onDelayedSend }, { event := answer .openFileWo .nak 0 }]

theorem a_denied_session_is_reported :
    Reported (begin (BftFtpClient.init threeByteFs 0 0 0) threeBytes).client.content
      (run step (begin (BftFtpClient.init threeByteFs 0 0 0) threeBytes) deniedSession) := by
  refine (outcome_iff rfl threeBytes (by decide +kernel)).mpr ⟨⟨?_, ?_, trivial⟩, ?_⟩
  · exact fun h => absurd h.1 (by decide +kernel)
  · exact fun h => absurd h.1 (by decide +kernel)
  · intro h
    rcases h with ⟨e, he, m, hm, hack⟩
    obtain rfl := Option.some_inj.mp he
    cases hm
    exact absurd hack (by decide)

/-- The one write is refused, and the session is closed. -/
def refusedWrite : List Event :=
  [{ event := .onDelayedSend }, { event := answer .openFileWo .ack 3, request := some 0 },
    { event := answer .writeFile .nak 3, request := some 1 }, { event := answer .terminateSession .ack 3, request := some 2 }]

/-- The transfer is reported failed, and then done. -/
theorem a_refused_transfer_is_reported_done :
    EndsAt step Idle (begin (BftFtpClient.init threeByteFs 0 0 0) threeBytes) refusedWrite ∧
      ¬ Reported [1, 2, 3] (run step (begin (BftFtpClient.init threeByteFs 0 0 0) threeBytes) refusedWrite) := by
  refine ⟨by decide +kernel, fun h => ?_⟩
  have hdone := h.done (by decide +kernel) 0 (by decide)
  revert hdone
  have hnone : (run step (begin (BftFtpClient.init threeByteFs 0 0 0) threeBytes) refusedWrite).acknowledged = [] := by
    decide +kernel
  rw [hnone]
  nofun

end Transfer

end Esp32Cam.Mav
