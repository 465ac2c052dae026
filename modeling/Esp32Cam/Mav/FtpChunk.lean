/-
  Esp32Cam.Mav.FtpChunk — the data and the offset of a WriteFile.

  A WriteFile takes its offset from `fileOffset` and its data from behind the file's
  cursor. A resend seeks the file to the offset at once and forms its message later,
  when the work queue comes to it (`onDelayedSend`); any message formed in between
  moves the cursor.

  `chunks_agree_iff`: in a run, every WriteFile carries the bytes of the file at its
  offset, whatever bytes the files hold, exactly when every queued WriteFile is formed
  while the file's cursor stands at the offset, or at the end of the file
  (`FormedAtOffset`). `two_queued_messages_send_a_chunk_at_the_offset_of_another` is a
  run in which one is not.
-/

import Mathlib.Data.List.Forall2
import Esp32Cam.Mav.FtpUpload

namespace Esp32Cam.Mav.BftFtpClient

open Esp32Cam.Lib Esp32Cam.Bft

/-- A WriteFile carries the bytes at its offset, as many as its size says. -/
def carriesChunk (bytes : List UInt8) : MavlinkMessage → Bool
  | .fileTransferProtocol m => m.payload.opcode != Ftp.Op.writeFile.code ||
      m.payload.data == (bytes.drop m.payload.offset).take m.payload.size.toNat
  | .other _ => true

/-- Every WriteFile of the step carries the bytes at its offset. -/
def ChunksAgree (c : BftFtpClient) (e : Event) : Prop := ∀ m ∈ newlySent c e, carriesChunk c.content m = true

/-- A queued WriteFile is formed where the transfer stands, or behind the last byte. -/
def FormedAtOffset (c : BftFtpClient) : Event → Prop
  | .onDelayedSend => c.delayedSends ≠ 0 → c.requestRepeat.state = .transferring →
      (c.fs.memoryPoolCurrentPosition : Int) = c.requestRepeat.fileOffset ∨
        c.fs.memoryPoolCurrentPosition = c.fs.memoryPoolNextWritePosition
  | _ => True

/-- The events are the same, but for the bytes of the files, which `R` relates. -/
def EventUpTo (R : List UInt8 → List UInt8 → Prop) : Event → Event → Prop
  | .onFileBufferingFinished fs file, e =>
    ∃ pool, R fs.pool pool ∧ e = .onFileBufferingFinished { fs with pool := pool } file
  | e, e' => e' = e

def SameSize (pool pool' : List UInt8) : Prop := pool'.length = pool.length

/-! ## The bytes a WriteFile carries -/

section
variable {c : BftFtpClient} {file : File} {bytes : List UInt8} {p o : Nat}

theorem take_length_chunkAt (bytes : List UInt8) (p : Nat) :
    (bytes.drop p).take (chunkAt bytes p).length = chunkAt bytes p := by
  rw [chunkAt, List.take_eq_take_iff, List.length_take]
  omega

/-- The size fits in its byte. -/
theorem size_chunkAt (bytes : List UInt8) (p : Nat) :
    (UInt8.ofNat (chunkAt bytes p).length).toNat = (chunkAt bytes p).length := by
  have h := length_chunkAt bytes p
  simp only [Ftp.kMaxDataLength] at h
  exact UInt8.toNat_ofNat_of_lt' (by show _ < 256; omega)

theorem carriesChunk_writeRequest_iff (h : Uploading file bytes p c) (ho : c.requestRepeat.fileOffset = o) (hle : o ≤ p) :
    carriesChunk bytes (.fileTransferProtocol c.writeRequest) = true ↔
      chunkAt bytes p = (bytes.drop o).take (chunkAt bytes p).length := by
  have hlt := h.lt
  have hoff : uint32 c.requestRepeat.fileOffset = o := by rw [ho]; exact uint32_of_lt (by omega)
  simp only [carriesChunk, writeRequest, FileTransferProtocol.setWriteFileFields, h.nextChunk, hoff, size_chunkAt, bne_self_eq_false,
    Bool.false_or, beq_iff_eq]

/-- A WriteFile formed at the offset carries the bytes there. -/
theorem carriesChunk_at_offset (h : Uploading file bytes p c) (ho : c.requestRepeat.fileOffset = p) :
    carriesChunk bytes (.fileTransferProtocol c.writeRequest) = true :=
  (carriesChunk_writeRequest_iff h ho (Nat.le_refl p)).mpr (take_length_chunkAt bytes p).symm

/-- A WriteFile formed at the end of the file carries none. -/
theorem carriesChunk_at_end (h : Uploading file bytes bytes.length c) (ho : c.requestRepeat.fileOffset = o)
    (hle : o ≤ bytes.length) : carriesChunk bytes (.fileTransferProtocol c.writeRequest) = true := by
  have hchunk : chunkAt bytes bytes.length = [] := by rw [chunkAt, List.drop_length, List.take_nil]
  rw [carriesChunk_writeRequest_iff h ho hle, hchunk, List.length_nil, List.take_zero]

end

/-! ## One step -/

section
variable {c : BftFtpClient} {e : Event} {m : FileTransferProtocol}

theorem chunksAgree_of_sent {w : MavlinkMessage} (hsent : (step c e).sent = c.sent ++ [w])
    (hw : carriesChunk c.content w = true) : ChunksAgree c e := by
  intro w' hw'
  rw [newlySent_of_sent hsent] at hw'
  rw [List.mem_singleton.mp hw']
  exact hw

theorem chunksAgree_of_silent (hsent : (step c e).sent = c.sent) : ChunksAgree c e := by
  intro w hw
  rw [newlySent_of_sent (by rw [hsent, List.append_nil])] at hw
  cases hw

theorem carriesChunk_terminateRequest (bytes : List UInt8) :
    carriesChunk bytes (.fileTransferProtocol c.terminateRequest) = true := rfl

/-- The first write of a session is formed at the beginning. -/
theorem granted_chunksAgree (h : HasFile c) (hs : c.requestRepeat.state = .creatingSession) (hm : Answers m .openFileWo .ack) :
    ChunksAgree c (.message (.fileTransferProtocol m)) := by
  obtain ⟨file, hf, hh⟩ := h.held (Or.inl hs)
  obtain ⟨hup, ho, _, _⟩ := granted_uploading (m := m) hf hh
  refine chunksAgree_of_sent (w := .fileTransferProtocol (c.granted m).writeRequest) ?_ (carriesChunk_at_offset hup ho)
  rw [step_granted hs hm]
  exact sessionGranted_sent c m

/-- The write behind an acknowledged one is formed where the offset has just been put. -/
theorem acknowledged_chunksAgree (h : HasFile c) (hs : c.requestRepeat.state = .transferring) (hm : Answers m .writeFile .ack)
    (hv : c.validateIncomingMessageSessionId m = true) : ChunksAgree c (.message (.fileTransferProtocol m)) := by
  obtain ⟨file, _, hup, _, _⟩ := h.uploading hs
  have hsent := writeAcknowledged_sent c m
  rw [← step_acknowledged hs hm hv] at hsent
  refine chunksAgree_of_sent hsent ?_
  cases he : c.atEof with
  | true =>
    have hclosing : c.writeTaken.request (.fileTransferProtocol m) = .fileTransferProtocol c.writeTaken.terminateRequest := by
      simp [request, writeTaken_eq, he]
    rw [hclosing]
    exact carriesChunk_terminateRequest _
  | false =>
    obtain ⟨hup', ho, _, _⟩ := writeTaken_uploading hup he
    rw [request_write hup'.state]
    exact carriesChunk_at_offset hup' ho

theorem message_chunksAgree (h : HasFile c) (m : MavlinkMessage) : ChunksAgree c (.message m) := by
  cases m with
  | other => exact chunksAgree_of_silent rfl
  | fileTransferProtocol m =>
    have htakes := process_takes c m
    have hstep : step c (.message (.fileTransferProtocol m)) = (c.process (.fileTransferProtocol m)).1 := rfl
    generalize (c.process (.fileTransferProtocol m)).1 = c' at *
    cases htakes with
    | nothing => exact chunksAgree_of_silent (by rw [hstep])
    | stopped | denied | closed | notClosed => exact chunksAgree_of_silent (by rw [hstep]; rfl)
    | granted hs hm => exact granted_chunksAgree h hs hm
    | acknowledged hs hm hv => exact acknowledged_chunksAgree h hs hm hv
    | refused _ _ =>
      exact chunksAgree_of_sent (by rw [hstep]; exact writeRefused_sent c m) (carriesChunk_terminateRequest _)

/-- What a queued message is formed from, and what comes of it while transferring. -/
theorem queued_chunksAgree_iff (hd : c.delayedSends ≠ 0) (hs : c.requestRepeat.state = .transferring) :
    ChunksAgree c .onDelayedSend ↔
      carriesChunk c.content (.fileTransferProtocol { c with delayedSends := c.delayedSends - 1 }.writeRequest) = true := by
  have hsent := onDelayedSend_sent hd
  have hs' : ({ c with delayedSends := c.delayedSends - 1 } : BftFtpClient).requestRepeat.state = .transferring := hs
  rw [request_write hs'] at hsent
  constructor
  · intro h
    refine h _ ?_
    rw [newlySent_of_sent (show (step c .onDelayedSend).sent = _ from hsent)]
    exact List.mem_singleton_self _
  · exact chunksAgree_of_sent hsent

theorem onDelayedSend_chunksAgree (h : HasFile c) (hg : FormedAtOffset c .onDelayedSend) : ChunksAgree c .onDelayedSend := by
  by_cases hd : c.delayedSends = 0
  · refine chunksAgree_of_silent ?_
    simp [step, onDelayedSend, hd]
  by_cases hs : c.requestRepeat.state = .transferring
  · obtain ⟨file, o, hup, ho, hle⟩ := h.uploading hs
    have hup' : Uploading file c.content _ { c with delayedSends := c.delayedSends - 1 } := ⟨hup.state, hup.bftFile, hup.holds⟩
    rw [queued_chunksAgree_iff hd hs]
    rcases hg hd hs with heq | hend
    · exact carriesChunk_at_offset hup' heq.symm
    · rw [hend, hup.holds.next] at hup'
      exact carriesChunk_at_end hup' ho (by rw [← hup.holds.next, ← hend]; exact hle)
  · have hsent := onDelayedSend_sent hd
    refine chunksAgree_of_sent (show (step c .onDelayedSend).sent = _ from hsent) ?_
    unfold request
    dsimp only
    cases hst : c.requestRepeat.state with
    | transferring => exact absurd hst hs
    | idle | creatingSession | closingSession | max => rfl

/-- A step that forms its queued write at the offset sends the bytes at the offset. -/
theorem step_chunksAgree (h : HasFile c) (hg : FormedAtOffset c e) : ChunksAgree c e := by
  cases e with
  | onFileBufferingFinished fs file =>
    refine chunksAgree_of_silent ?_
    cases ha : accepts c (.onFileBufferingFinished fs file) with
    | true => rw [step_accepted ha]; rfl
    | false => rw [step_not_accepted ha]
  | message m => exact message_chunksAgree h m
  | onHrTimer => exact chunksAgree_of_silent (onHrTimer_sent c)
  | onDelayedSend => exact onDelayedSend_chunksAgree h hg

theorem along_chunksAgree {es : List Event} (h : HasFile c) (hes : ∀ e ∈ es, Handover e)
    (hg : Along step FormedAtOffset c es) : Along step ChunksAgree c es := by
  induction es generalizing c with
  | nil => trivial
  | cons e es ih =>
    have he := hes e List.mem_cons_self
    exact ⟨step_chunksAgree h hg.1, ih (step_hasFile h fun _ => he) (fun d hd => hes d (List.mem_cons_of_mem _ hd)) hg.2⟩

end

/-! ## Other bytes in the same files -/

def withBytes (c : BftFtpClient) (pool : List UInt8) (sent : List MavlinkMessage) : BftFtpClient :=
  { c with fs := { c.fs with pool := pool }, sent := sent }

section
variable (c : BftFtpClient) (pool : List UInt8) (sent : List MavlinkMessage)

@[simp] theorem withBytes_requestRepeat : (c.withBytes pool sent).requestRepeat = c.requestRepeat := rfl
@[simp] theorem withBytes_delayedSends : (c.withBytes pool sent).delayedSends = c.delayedSends := rfl

theorem file_seek_pool (fs : SingleBufferRamFileSystem) (f : File) (offset : Int) (origin : Position) :
    f.seek { fs with pool := pool } offset origin =
      ({ (f.seek fs offset origin).1 with pool := pool }, (f.seek fs offset origin).2) := by
  unfold File.seek
  split
  · simp only [FileSystem.seek, SingleBufferRamFileSystem.seek]
    split <;> rfl
  · rfl

theorem seekFile_withBytes (offset : Int) : (c.withBytes pool sent).seekFile offset = (c.seekFile offset).withBytes pool sent := by
  unfold seekFile
  rw [withBytes_requestRepeat]
  split
  · rfl
  · simp only [withBytes, file_seek_pool]

theorem file_getCurrentPosition_pool (fs : SingleBufferRamFileSystem) (f : File) :
    f.getCurrentPosition { fs with pool := pool } =
      ({ (f.getCurrentPosition fs).1 with pool := pool }, (f.getCurrentPosition fs).2) := by
  have hseek := file_seek_pool pool fs f 0 .current
  unfold File.seek at hseek
  unfold File.getCurrentPosition
  split
  · rename_i hfile
    rw [if_pos hfile, if_pos hfile] at hseek
    simp only [hseek]
  · rfl

theorem file_read_pool (fs : SingleBufferRamFileSystem) (f : File) (n : Nat) :
    (f.read { fs with pool := pool } n).1 = { (f.read fs n).1 with pool := pool } := by
  unfold File.read
  split
  · simp only [FileSystem.read, SingleBufferRamFileSystem.read]
    by_cases hd : f.fileDescriptor.raw = fs.memoryPool
    · rw [if_neg (not_not_intro hd), if_neg (not_not_intro hd)]
    · rw [if_pos hd, if_pos hd]
  · rfl

theorem getCurrentPosition_withBytes : (c.withBytes pool sent).getCurrentPosition =
    (c.getCurrentPosition.1.withBytes pool sent, c.getCurrentPosition.2) := by
  unfold getCurrentPosition
  rw [withBytes_requestRepeat]
  split
  · rfl
  · simp only [withBytes, file_getCurrentPosition_pool]

theorem nextChunk_withBytes : (c.withBytes pool sent).nextChunk.1 = { c.nextChunk.1 with pool := pool } := by
  unfold nextChunk
  rw [withBytes_requestRepeat]
  split
  · rfl
  · exact file_read_pool pool _ _ _

theorem respond_withBytes (m : MavlinkMessage) : (c.withBytes pool sent).respond m =
    (c.respond m).withBytes pool (sent ++ [(c.withBytes pool sent).request m]) := by
  rw [respond_eq, respond_eq, withBytes_requestRepeat, nextChunk_withBytes]
  unfold withBytes
  split <;> rfl

theorem writeTaken_withBytes : (c.withBytes pool sent).writeTaken = c.writeTaken.withBytes pool sent := by
  have hcursor : (c.withBytes pool sent).cursor = c.cursor := by rw [cursor, getCurrentPosition_withBytes, cursor]
  have heof : (c.withBytes pool sent).atEof = c.atEof := by rw [atEof, hcursor, withBytes_requestRepeat, atEof]
  rw [writeTaken_eq, writeTaken_eq, hcursor, heof, getCurrentPosition_withBytes]
  rfl

theorem granted_withBytes (m : FileTransferProtocol) :
    (c.withBytes pool sent).granted m = (c.granted m).withBytes pool sent := by
  have hseek := seekFile_withBytes c.stopTimer.handleSuccessfulAttemptCommon.handleTransitionCommon pool sent 0
  have hpos := getCurrentPosition_withBytes (c.stopTimer.handleSuccessfulAttemptCommon.handleTransitionCommon.seekFile 0)
    pool sent
  rw [← hseek] at hpos
  unfold granted handleTransferringTransition
  dsimp only
  rw [show (c.withBytes pool sent).stopTimer.handleSuccessfulAttemptCommon.handleTransitionCommon =
    c.stopTimer.handleSuccessfulAttemptCommon.handleTransitionCommon.withBytes pool sent from rfl, hpos]
  rfl

end

section
variable {c : BftFtpClient} {pool : List UInt8} {m : FileTransferProtocol}

/-- The two clients differ in the bytes of the file and the messages sent only. -/
def SameBut (pool : List UInt8) (c c' : BftFtpClient) : Prop := ∃ sent, c' = c.withBytes pool sent

theorem creatingSession_sameBut (sent : List MavlinkMessage) : SameBut pool (c.processMavlinkMessageCreatingSession m).1
    ((c.withBytes pool sent).processMavlinkMessageCreatingSession m).1 := by
  unfold processMavlinkMessageCreatingSession
  by_cases hreq : m.payload.reqOpcode = Ftp.Op.openFileWo.code
  · rw [if_pos hreq, if_pos hreq]
    by_cases hack : m.payload.opcode = Ftp.Op.ack.code
    · simp only [hack, if_true]
      have hres := respond_withBytes (c.granted m) pool sent (.fileTransferProtocol m)
      rw [← granted_withBytes] at hres
      exact ⟨_, congrArg startOnce hres⟩
    · by_cases hnak : m.payload.opcode = Ftp.Op.nak.code
      · simp only [hnak, if_true]; exact ⟨sent, rfl⟩
      · simp only [hack, hnak, if_false]; exact ⟨sent, rfl⟩
  · rw [if_neg hreq, if_neg hreq]; exact ⟨sent, rfl⟩

theorem writeAcknowledged_sameBut (sent : List MavlinkMessage) :
    SameBut pool (c.writeAcknowledged m) ((c.withBytes pool sent).writeAcknowledged m) := by
  have hres := respond_withBytes c.writeTaken pool sent (.fileTransferProtocol m)
  rw [← writeTaken_withBytes] at hres
  unfold writeAcknowledged
  rw [hres]
  exact ⟨_, rfl⟩

theorem transferring_sameBut (sent : List MavlinkMessage) : SameBut pool (c.processMavlinkMessageTransferring m).1
    ((c.withBytes pool sent).processMavlinkMessageTransferring m).1 := by
  unfold processMavlinkMessageTransferring
  by_cases hreq : m.payload.reqOpcode = Ftp.Op.writeFile.code
  · rw [if_pos hreq, if_pos hreq]
    by_cases hack : m.payload.opcode = Ftp.Op.ack.code
    · simp only [hack, if_true]
      rw [show (c.withBytes pool sent).stopTimer.validateIncomingMessageSessionId m =
        c.stopTimer.validateIncomingMessageSessionId m from rfl]
      cases c.stopTimer.validateIncomingMessageSessionId m with
      | false => exact ⟨sent, rfl⟩
      | true => exact writeAcknowledged_sameBut sent
    · by_cases hnak : m.payload.opcode = Ftp.Op.nak.code
      · simp only [hnak, if_true]
        have hres := respond_withBytes (c.stopTimer.push (.failed "Could not transfer a file chunk, got FAILED response")
          |>.handleClosingSessionTransition) pool sent (.fileTransferProtocol m)
        exact ⟨_, congrArg startOnce hres⟩
      · simp only [hack, hnak, if_false]; exact ⟨sent, rfl⟩
  · rw [if_neg hreq, if_neg hreq]; exact ⟨sent, rfl⟩

theorem closingSession_sameBut (sent : List MavlinkMessage) : SameBut pool (c.processMavlinkMessageClosingSession m).1
    ((c.withBytes pool sent).processMavlinkMessageClosingSession m).1 := by
  unfold processMavlinkMessageClosingSession
  split
  · split
    · exact ⟨sent, rfl⟩
    · split <;> exact ⟨sent, rfl⟩
  · exact ⟨sent, rfl⟩

theorem process_sameBut (m : MavlinkMessage) (sent : List MavlinkMessage) :
    SameBut pool (c.process m).1 ((c.withBytes pool sent).process m).1 := by
  cases m with
  | other => exact ⟨sent, rfl⟩
  | fileTransferProtocol m =>
    by_cases ht : isTarget m = true
    · rw [process_target ht, process_target ht, withBytes_requestRepeat]
      cases c.requestRepeat.state with
      | idle | max => exact ⟨sent, rfl⟩
      | creatingSession => exact creatingSession_sameBut sent
      | transferring => exact transferring_sameBut sent
      | closingSession => exact closingSession_sameBut sent
    · rw [process_not_target ht, process_not_target ht]
      exact ⟨sent, rfl⟩

theorem onHrTimer_sameBut (sent : List MavlinkMessage) : SameBut pool c.onHrTimer (c.withBytes pool sent).onHrTimer := by
  unfold onHrTimer onHrTimerAttempt
  rw [show (c.withBytes pool sent).stopTimer.requestRepeat = c.stopTimer.requestRepeat from rfl]
  split
  · cases c.stopTimer.requestRepeat.state <;> exact ⟨sent, rfl⟩
  · unfold onHrTimerResend
    rw [show (c.withBytes pool sent).stopTimer.handleFailedAttemptCommon.requestRepeat =
      c.stopTimer.handleFailedAttemptCommon.requestRepeat from rfl]
    cases c.stopTimer.handleFailedAttemptCommon.requestRepeat.state with
    | idle | creatingSession | closingSession | max => exact ⟨sent, rfl⟩
    | transferring =>
      have hseek := seekFile_withBytes c.stopTimer.handleFailedAttemptCommon pool sent
        c.stopTimer.handleFailedAttemptCommon.requestRepeat.fileOffset
      exact ⟨sent, congrArg (fun c => c.notifyDelayedSend.startOnce) hseek⟩

theorem onDelayedSend_sameBut (sent : List MavlinkMessage) :
    SameBut pool c.onDelayedSend (c.withBytes pool sent).onDelayedSend := by
  unfold onDelayedSend
  rw [withBytes_delayedSends]
  split
  · exact ⟨sent, rfl⟩
  · exact ⟨_, respond_withBytes { c with delayedSends := c.delayedSends - 1 } pool sent (.other 0)⟩

theorem step_sameBut {e : Event} (h : accepts c e = false) (pool : List UInt8) (sent : List MavlinkMessage) :
    SameBut pool (step c e) (step (c.withBytes pool sent) e) := by
  cases e with
  | onFileBufferingFinished fs file =>
    have h' : accepts (c.withBytes pool sent) (.onFileBufferingFinished fs file) = false := h
    rw [step_not_accepted h, step_not_accepted h']
    exact ⟨sent, rfl⟩
  | message m => exact process_sameBut m sent
  | onHrTimer => exact onHrTimer_sameBut sent
  | onDelayedSend => exact onDelayedSend_sameBut sent

end

/-- The clients differ in the messages sent and the bytes of the file only, and `R` relates these. -/
def ClientUpTo (R : List UInt8 → List UInt8 → Prop) (c c' : BftFtpClient) : Prop :=
  ∃ pool, R c.fs.pool pool ∧ SameBut pool c c'

section
variable {R : List UInt8 → List UInt8 → Prop} {c c' : BftFtpClient} {e e' : Event}

/-- What the client does next does not depend on the bytes of its file. -/
theorem step_upTo (h : ClientUpTo R c c') (he : EventUpTo R e e') : ClientUpTo R (step c e) (step c' e') := by
  obtain ⟨pool, hR, sent, rfl⟩ := h
  by_cases ha : accepts c e = true
  · cases e with
    | onFileBufferingFinished fs file =>
      obtain ⟨pool', hR', rfl⟩ := he
      rw [step_accepted ha, step_accepted (show accepts (c.withBytes pool sent) (.onFileBufferingFinished _ file) = true from ha)]
      exact ⟨pool', hR', sent, rfl⟩
    | message | onHrTimer | onDelayedSend => cases ha
  · have ha' : accepts c e = false := by simpa using ha
    have hsame := step_sameBut ha' pool sent
    obtain ⟨p, hp⟩ := step_sameFile ha'
    have heq : step (c.withBytes pool sent) e' = step (c.withBytes pool sent) e := by
      cases e with
      | onFileBufferingFinished fs file =>
        obtain ⟨pool', _, rfl⟩ := he
        have hkeep : ∀ fs, step (c.withBytes pool sent) (.onFileBufferingFinished fs file) = c.withBytes pool sent :=
          fun fs => step_not_accepted (show accepts (c.withBytes pool sent) (.onFileBufferingFinished fs file) = false from ha')
        rw [hkeep, hkeep]
      | message | onHrTimer | onDelayedSend => rw [show e' = _ from he]
    rw [heq]
    refine ⟨pool, ?_, hsame⟩
    rw [hp]
    exact hR

theorem run_upTo {es es' : List Event} (h : ClientUpTo R c c') (he : List.Forall₂ (EventUpTo R) es es') :
    ClientUpTo R (run step c es) (run step c' es') := by
  induction he generalizing c c' with
  | nil => exact h
  | cons he _ ih => exact ih (step_upTo h he)

/-- Nor does where a queued write is formed. -/
theorem formedAtOffset_upTo (h : ClientUpTo R c c') (he : EventUpTo R e e') (hg : FormedAtOffset c e) :
    FormedAtOffset c' e' := by
  obtain ⟨pool, _, sent, rfl⟩ := h
  cases e with
  | onFileBufferingFinished fs file =>
    obtain ⟨_, _, rfl⟩ := he
    exact trivial
  | message | onHrTimer | onDelayedSend =>
    rw [show e' = _ from he]
    exact hg

theorem along_formedAtOffset_upTo {es es' : List Event} (h : ClientUpTo R c c')
    (he : List.Forall₂ (EventUpTo R) es es') (hg : Along step FormedAtOffset c es) : Along step FormedAtOffset c' es' := by
  induction he generalizing c c' with
  | nil => trivial
  | cons he _ ih => exact ⟨formedAtOffset_upTo h he hg.1, ih (step_upTo h he) hg.2⟩

/-- A file with other bytes in a buffer of the same size is a buffered file. -/
theorem handover_sameSize (he : EventUpTo SameSize e e') (h : Handover e) : Handover e' := by
  cases e with
  | onFileBufferingFinished fs file =>
    obtain ⟨pool, hsize, rfl⟩ := he
    obtain ⟨bytes, cursor, hh⟩ := h
    have hlen : (pool.take bytes.length).length = bytes.length := by
      have := hh.fits
      rw [List.length_take, show pool.length = fs.pool.length from hsize]
      exact Nat.min_eq_left this
    refine ⟨pool.take bytes.length, cursor, ⟨hh.fileSystem, hh.descriptor, ?_, hh.current, ?_, ?_, ?_⟩⟩
    · rw [hlen]; exact hh.next
    · rw [hlen]; exact hh.inside
    · rw [hlen]
    · have := hh.size
      unfold SingleBufferRamFileSystem.memoryPoolSize at *
      rw [show pool.length = fs.pool.length from hsize]
      exact this
  | message | onHrTimer | onDelayedSend =>
    rw [show e' = _ from he]
    trivial

theorem handovers_sameSize {es es' : List Event} (he : List.Forall₂ (EventUpTo SameSize) es es')
    (h : ∀ e ∈ es, Handover e) : ∀ e' ∈ es', Handover e' := by
  induction he with
  | nil => nofun
  | cons he _ ih =>
    intro d hd
    rcases List.mem_cons.mp hd with rfl | hd
    · exact handover_sameSize he (h _ List.mem_cons_self)
    · exact ih (fun e hm => h e (List.mem_cons_of_mem _ hm)) d hd

end

/-! ## A file that tells its chunks apart -/

/-- Zeros, and a one at `k`. -/
def markPool (k : Nat) (pool : List UInt8) : List UInt8 := (List.replicate pool.length 0).set k 1

def markEvent (k : Nat) : Event → Event
  | .onFileBufferingFinished fs file => .onFileBufferingFinished { fs with pool := markPool k fs.pool } file
  | e => e

def Marks (k : Nat) (pool pool' : List UInt8) : Prop := pool' = markPool k pool

section
variable {c c' : BftFtpClient} {k : Nat} {es : List Event}

theorem length_markPool (k : Nat) (pool : List UInt8) : (markPool k pool).length = pool.length := by
  rw [markPool, List.length_set, List.length_replicate]

theorem getElem?_markPool {pool : List UInt8} {i : Nat} (hi : i < pool.length) :
    (markPool k pool)[i]? = some (if i = k then 1 else 0) := by
  rw [markPool, List.getElem?_set, List.length_replicate]
  by_cases h : k = i
  · subst h
    simp [hi]
  · rw [if_neg h, if_neg (Ne.symm h), List.getElem?_replicate, if_pos hi]

theorem forall₂_markEvent (R : List UInt8 → List UInt8 → Prop) (hR : ∀ pool, R pool (markPool k pool)) (es : List Event) :
    List.Forall₂ (EventUpTo R) es (es.map (markEvent k)) := by
  induction es with
  | nil => exact .nil
  | cons e es ih =>
    refine .cons ?_ ih
    cases e with
    | onFileBufferingFinished fs file => exact ⟨_, hR _, rfl⟩
    | message | onHrTimer | onDelayedSend => rfl

/-- A queued write formed elsewhere carries other bytes, where the file is marked at its cursor. -/
theorem marked_disagrees (h : HasFile c) (hc' : ClientUpTo (Marks c.fs.memoryPoolCurrentPosition) c c')
    (hd : c.delayedSends ≠ 0) (hs : c.requestRepeat.state = .transferring)
    (hoff : (c.fs.memoryPoolCurrentPosition : Int) ≠ c.requestRepeat.fileOffset)
    (hend : c.fs.memoryPoolCurrentPosition ≠ c.fs.memoryPoolNextWritePosition) : ¬ ChunksAgree c' .onDelayedSend := by
  obtain ⟨pool, hpool, sent, rfl⟩ := hc'
  obtain ⟨file, o, hup, ho, hle⟩ := h.uploading hs
  generalize hp : c.fs.memoryPoolCurrentPosition = p at *
  have hin := hup.holds.inside
  have hnext := hup.holds.next
  have hfits := hup.holds.fits
  unfold SingleBufferRamFileSystem.memoryPoolSize at hfits
  have hlen : pool.length = c.fs.pool.length := by rw [show pool = _ from hpool, length_markPool]
  -- the marked file, and what it has at the cursor and at the offset
  have hcontent : (c.withBytes pool sent).content = pool.take c.content.length := by
    rw [← hnext]; rfl
  have hclen : (pool.take c.content.length).length = c.content.length := by
    rw [List.length_take]; omega
  have hat : ∀ i < c.content.length, (pool.take c.content.length)[i]? = some (if i = p then 1 else 0) := by
    intro i hi
    rw [List.getElem?_take, if_pos hi, show pool = _ from hpool, getElem?_markPool (by omega)]
  have hup' : Uploading file (pool.take c.content.length) p
      { c.withBytes pool sent with delayedSends := (c.withBytes pool sent).delayedSends - 1 } := by
    refine ⟨hs, hup.bftFile, hup.holds.fileSystem, hup.holds.descriptor, ?_, hp, ?_, ?_, ?_⟩
    · rw [hclen]; exact hnext
    · rw [hclen]; exact hin
    · rw [hclen]; rfl
    · have := hup.holds.size
      unfold SingleBufferRamFileSystem.memoryPoolSize at *
      exact hlen ▸ this
  rw [queued_chunksAgree_iff (c := c.withBytes pool sent) hd hs, hcontent, carriesChunk_writeRequest_iff hup' ho hle]
  intro heq
  have hpos : 0 < (chunkAt (pool.take c.content.length) p).length := by
    rw [length_chunkAt, hclen, Ftp.kMaxDataLength]
    omega
  have hzero := congrArg (fun l => l[0]?) heq
  rw [chunkAt] at hzero hpos
  rw [List.getElem?_take, List.getElem?_take, if_pos hpos, if_pos (by decide), List.getElem?_drop, List.getElem?_drop,
    Nat.add_zero, Nat.add_zero, hat p (by omega), hat o (by omega), if_pos rfl, if_neg (by omega)] at hzero
  cases hzero

end

/-- **Chunk and offset.** Whatever bytes the files of a run hold, all its writes carry
    the bytes at their offsets exactly when each queued write is formed at the offset. -/
theorem chunks_agree_iff (fs : SingleBufferRamFileSystem) (sessionId : UInt32) (fileOffset : Int) (fileSize : Nat)
    {es : List Event} (hes : ∀ e ∈ es, Handover e) :
    (∀ pool es', SameSize fs.pool pool → List.Forall₂ (EventUpTo SameSize) es es' →
      Along step ChunksAgree (init { fs with pool := pool } sessionId fileOffset fileSize) es') ↔
    Along step FormedAtOffset (init fs sessionId fileOffset fileSize) es := by
  have hinit : ∀ R pool, R fs.pool pool →
      ClientUpTo R (init fs sessionId fileOffset fileSize) (init { fs with pool := pool } sessionId fileOffset fileSize) :=
    fun _ pool hR => ⟨pool, hR, [], rfl⟩
  constructor
  · -- at a queued write formed elsewhere, the files are marked where its cursor stands
    intro h
    refine along_of_each fun pre e post heq => ?_
    subst heq
    have hfile : HasFile (run step (init fs sessionId fileOffset fileSize) pre) :=
      run_hasFile (init_hasFile ..) fun e he => hes e (List.mem_append_left _ he)
    cases e with
    | onFileBufferingFinished | message | onHrTimer => trivial
    | onDelayedSend =>
      intro hd hs
      by_contra hne
      obtain ⟨hoff, hend⟩ := not_or.mp hne
      generalize hk : (run step (init fs sessionId fileOffset fileSize) pre).fs.memoryPoolCurrentPosition = k at *
      have hagree := h (markPool k fs.pool) ((pre ++ .onDelayedSend :: post).map (markEvent k)) (length_markPool k _)
        (forall₂_markEvent SameSize (length_markPool k) _)
      rw [List.map_append, List.map_cons] at hagree
      have hmarked := run_upTo (hinit (Marks k) _ rfl) (forall₂_markEvent (Marks k) (fun _ => rfl) pre)
      subst hk
      exact marked_disagrees hfile hmarked hd hs hoff hend hagree.at
  · intro h pool es' hpool hes'
    have hformed := along_formedAtOffset_upTo (hinit SameSize pool hpool) hes' h
    exact along_chunksAgree (init_hasFile ..) (handovers_sameSize hes' hes) hformed

/-- The first write is sent, and sent once more when the timer has fired. -/
def writeResentOnce : List Event :=
  [.onFileBufferingFinished threeByteFs threeByteFile, .onDelayedSend, answer .openFileWo .ack 3, .onHrTimer, .onDelayedSend]

/-- A write that is resent once carries the bytes at its offset again. -/
theorem a_write_resent_once_agrees : Along step ChunksAgree (init threeByteFs 0 0 0) writeResentOnce := by
  have hhandover : ∀ e ∈ writeResentOnce, Handover e := by
    intro e he
    rcases List.mem_cons.mp he with rfl | he
    · exact ⟨_, _, threeByte_holds⟩
    · simp only [List.mem_cons, List.not_mem_nil, or_false] at he
      rcases he with rfl | rfl | rfl | rfl <;> trivial
  have hsame : List.Forall₂ (EventUpTo SameSize) writeResentOnce writeResentOnce :=
    .cons ⟨threeByteFs.pool, rfl, rfl⟩ (.cons rfl (.cons rfl (.cons rfl (.cons rfl .nil))))
  refine (chunks_agree_iff threeByteFs 0 0 0 hhandover).mpr ⟨trivial, ?_, trivial, trivial, ?_, trivial⟩ _ writeResentOnce
    rfl hsame
  · intro _ hs
    cases hs
  · exact fun _ _ => Or.inl (by decide +kernel)

/-- A file of two hundred and forty bytes, the last of them a one. -/
def twoChunkFs : SingleBufferRamFileSystem := ⟨1, List.replicate 239 0 ++ [1], 240, 240⟩

theorem twoChunk_holds : Holds twoChunkFs threeByteFile twoChunkFs.pool 240 :=
  ⟨rfl, rfl, by decide +kernel, rfl, by decide +kernel, by decide +kernel, by decide +kernel⟩

/-- The request for the session is queued a second time by the timer; the session is
    granted, and the second message is formed behind the first write. -/
def requestQueuedTwice : List Event :=
  [.onFileBufferingFinished twoChunkFs threeByteFile, .onHrTimer, .onDelayedSend, answer .openFileWo .ack 3, .onDelayedSend]

theorem two_queued_messages_send_a_chunk_at_the_offset_of_another :
    ¬ Along step ChunksAgree (init twoChunkFs 0 0 0) requestQueuedTwice := by
  intro h
  have hlast := h.2.2.2.2.1
  revert hlast
  unfold ChunksAgree
  decide +kernel

end Esp32Cam.Mav.BftFtpClient
