/-
  Esp32Cam.Mav.FtpEof — the end of an upload.

  A buffered file is handed over, the session is granted, and every write is
  acknowledged in order (`acknowledged c es n`, behind `n` acknowledgements). The upload
  should end with the acknowledgement of the write that carried the last byte
  (`EndsWithLastByte`).

  It never does (`upload_never_ends`): the transition to the transferring state seeks
  the file to its beginning and takes the file's size from the cursor after that, so the
  size is zero, and the cursor behind an acknowledged write is not. The client goes on
  with writes of no bytes (`acknowledged_sending`, `empty_writes_follow`).
-/

import Esp32Cam.Mav.FtpAnswers

namespace Esp32Cam.Mav.BftFtpClient

open Esp32Cam.Lib Esp32Cam.Bft

/-! ## The run -/

def opened (c : BftFtpClient) (fs : SingleBufferRamFileSystem) (file : File) (grant : FileTransferProtocol) : BftFtpClient :=
  run step c [.onFileBufferingFinished fs file, .onDelayedSend, .message (.fileTransferProtocol grant)]

def acknowledged (c : BftFtpClient) (acks : Nat → FileTransferProtocol) (n : Nat) : BftFtpClient :=
  run step c ((List.range n).map fun i => .message (.fileTransferProtocol (acks i)))

theorem acknowledged_succ (c : BftFtpClient) (acks : Nat → FileTransferProtocol) (n : Nat) :
    acknowledged c acks (n + 1) = step (acknowledged c acks n) (.message (.fileTransferProtocol (acks n))) := by
  simp only [acknowledged, List.range_succ, List.map_append, run_append, List.map_cons, List.map_nil, run_cons, run_nil]

/-- An idle client, a buffered file, and an autopilot that grants a session and acknowledges its writes. -/
structure InOrder (c : BftFtpClient) (fs : SingleBufferRamFileSystem) (file : File) (content : List UInt8) (cursor : Nat)
    (grant : FileTransferProtocol) (acks : Nat → FileTransferProtocol) : Prop where
  idle : c.requestRepeat.state = .idle
  holds : Holds fs file content cursor
  granted : Answers grant .openFileWo .ack
  acks : ∀ n, Answers (acks n) .writeFile .ack ∧ (acks n).payload.session = grant.payload.session

/-- The number of writes that carry a file of this length. -/
def nWrites (length : Nat) : Nat := (length + Ftp.kMaxDataLength - 1) / Ftp.kMaxDataLength

def isEmptyWrite : MavlinkMessage → Bool
  | .fileTransferProtocol m => m.payload.opcode == Ftp.Op.writeFile.code && m.payload.size == 0
  | .other _ => false

/-- The client transfers until, and closes the session when, the write with the last byte
    is acknowledged; no write is empty. -/
structure EndsWithLastByte (c : BftFtpClient) (fs : SingleBufferRamFileSystem) (file : File) (grant : FileTransferProtocol)
    (acks : Nat → FileTransferProtocol) (length : Nat) : Prop where
  transferring : ∀ n < nWrites length, (acknowledged (opened c fs file grant) acks n).requestRepeat.state = .transferring
  closing : (acknowledged (opened c fs file grant) acks (nWrites length)).requestRepeat.state = .closingSession
  writes : ∀ n, ∀ m ∈ (acknowledged (opened c fs file grant) acks n).sent.drop c.sent.length, isEmptyWrite m = false

/-! ## Every state of the run -/

/-- The client behind `n` acknowledgements: the size it takes the file for is zero. -/
structure Sending (file : File) (content : List UInt8) (session : UInt8) (n : Nat) (c : BftFtpClient) : Prop where
  uploading : Uploading file content (min (Ftp.kMaxDataLength * (n + 1)) content.length) c
  fileSize : c.requestRepeat.fileSize = 0
  sessionId : c.requestRepeat.mavlinkFtpSessionId = session.toUInt32

section
variable {c : BftFtpClient} {fs : SingleBufferRamFileSystem} {file : File} {content : List UInt8} {cursor : Nat}
variable {grant : FileTransferProtocol} {acks : Nat → FileTransferProtocol} {session : UInt8} {n : Nat}

theorem add_length_chunkAt (content : List UInt8) (n : Nat) :
    min (Ftp.kMaxDataLength * n) content.length + (chunkAt content (min (Ftp.kMaxDataLength * n) content.length)).length =
      min (Ftp.kMaxDataLength * (n + 1)) content.length := by
  rw [length_chunkAt, Nat.mul_add, Nat.mul_one]
  omega

/-- Behind the grant: the file has been read from its beginning, and its size taken for zero. -/
theorem sessionGranted_sending {m : FileTransferProtocol} (hf : c.requestRepeat.bftFile = some file)
    (hh : Holds c.fs file content cursor) : Sending file content m.payload.session 0 (c.sessionGranted m) := by
  obtain ⟨hup, _, hsize, hsid⟩ := granted_uploading (m := m) hf hh
  have hup' := hup.respond (.fileTransferProtocol m)
  have hlen := add_length_chunkAt content 0
  rw [Nat.mul_zero, Nat.zero_min] at hlen
  rw [hlen] at hup'
  rw [sessionGranted_eq]
  exact ⟨⟨hup'.state, hup'.bftFile, hup'.holds⟩, by simpa [startOnce] using hsize, by simpa [startOnce] using hsid⟩

/-- An acknowledgement of the session is taken, and the cursor has passed the zero that is taken for the end. -/
theorem Sending.goesOn {m : FileTransferProtocol} (h : Sending file content session n c) (hne : content ≠ [])
    (hsession : m.payload.session = session) : c.validateIncomingMessageSessionId m = true ∧ c.atEof = false := by
  have hpos : 0 < content.length := List.length_pos_iff.mpr hne
  have hk : 0 < Ftp.kMaxDataLength * (n + 1) := Nat.mul_pos (by decide) (Nat.succ_pos n)
  constructor
  · rw [validateIncomingMessageSessionId, hsession, h.sessionId, beq_self_eq_true]
  · rw [h.uploading.atEof_eq, h.fileSize, beq_eq_false_iff_ne]
    omega

/-- An acknowledgement moves the transfer on by one write. -/
theorem Sending.step {m : FileTransferProtocol} (h : Sending file content session n c) (hne : content ≠ [])
    (hm : Answers m .writeFile .ack) (hsession : m.payload.session = session) :
    Sending file content session (n + 1) (step c (.message (.fileTransferProtocol m))) := by
  obtain ⟨hv, heof⟩ := h.goesOn hne hsession
  obtain ⟨hup, _, hsize, hsid⟩ := writeTaken_uploading h.uploading heof
  have hup' := hup.respond (.fileTransferProtocol m)
  rw [add_length_chunkAt] at hup'
  rw [step_acknowledged h.uploading.state hm hv]
  exact ⟨⟨hup'.state, hup'.bftFile, hup'.holds⟩,
    by simpa [writeAcknowledged, push, startOnce, hsize] using h.fileSize,
    by simpa [writeAcknowledged, push, startOnce, hsid] using h.sessionId⟩

/-- The client that has asked for the session. -/
theorem requested (h : c.requestRepeat.state = .idle) (fs : SingleBufferRamFileSystem) (file : File) :
    let c' := BftFtpClient.step (BftFtpClient.step c (.onFileBufferingFinished fs file)) .onDelayedSend
    c'.requestRepeat.state = .creatingSession ∧ c'.requestRepeat.bftFile = some file ∧ c'.fs = fs := by
  have hbuf : BftFtpClient.step c (.onFileBufferingFinished fs file) =
      ({ c with fs := fs }.handleCreatingSessionTransition file).resendSessionOpenRequest.startOnce := by
    simp [BftFtpClient.step, onFileBufferingFinished, h]
  rw [hbuf]
  have hd : (({ c with fs := fs }.handleCreatingSessionTransition file).resendSessionOpenRequest.startOnce).delayedSends ≠ 0 :=
    Nat.succ_ne_zero _
  simp only [BftFtpClient.step, onDelayedSend, if_neg hd, respond_eq]
  exact ⟨rfl, rfl, rfl⟩

/-- Behind any number of acknowledgements the client is still transferring. -/
theorem acknowledged_sending (h : InOrder c fs file content cursor grant acks) (hne : content ≠ []) (n : Nat) :
    Sending file content grant.payload.session n (acknowledged (opened c fs file grant) acks n) := by
  induction n with
  | zero =>
    obtain ⟨hs, hf, hfs⟩ := requested h.idle fs file
    have hopened : opened c fs file grant = sessionGranted _ grant := step_granted hs h.granted
    have hsending := sessionGranted_sending (m := grant) hf (by rw [hfs]; exact h.holds)
    rw [← hopened] at hsending
    exact hsending
  | succ n ih =>
    rw [acknowledged_succ]
    exact ih.step hne (h.acks n).1 (h.acks n).2

/-- The answer to an acknowledgement behind the last byte is a write of no bytes. -/
theorem empty_writes_follow (h : InOrder c fs file content cursor grant acks) (hne : content ≠ [])
    (hn : nWrites content.length ≤ n + 1) :
    ∃ m, (acknowledged (opened c fs file grant) acks (n + 1)).sent =
      (acknowledged (opened c fs file grant) acks n).sent ++ [m] ∧ isEmptyWrite m = true := by
  have hs := acknowledged_sending h hne n
  obtain ⟨hack, hsession⟩ := h.acks n
  rw [acknowledged_succ]
  generalize acknowledged (opened c fs file grant) acks n = c' at *
  obtain ⟨hv, heof⟩ := hs.goesOn hne hsession
  obtain ⟨hup, _⟩ := writeTaken_uploading hs.uploading heof
  refine ⟨.fileTransferProtocol c'.writeTaken.writeRequest, ?_, ?_⟩
  · rw [step_acknowledged hs.uploading.state hack hv]
    simp only [writeAcknowledged, push, startOnce, respond_eq, request, hup.state]
    rw [writeTaken_eq]
  · have hlen : content.length ≤ Ftp.kMaxDataLength * (n + 1) := by
      simp only [nWrites, Ftp.kMaxDataLength] at hn ⊢; omega
    have hchunk : chunkAt content (min (Ftp.kMaxDataLength * (n + 1)) content.length) = [] := by
      rw [Nat.min_eq_right hlen, chunkAt, List.drop_length, List.take_nil]
    simp [isEmptyWrite, writeRequest, FileTransferProtocol.setWriteFileFields, hup.nextChunk, hchunk]

/-- **End of an upload.** However long the file, wherever its cursor stood and whatever
    else the answers say, the upload does not end with its last byte. -/
theorem upload_never_ends (h : InOrder c fs file content cursor grant acks) (hne : content ≠ []) :
    ¬ EndsWithLastByte c fs file grant acks content.length := by
  intro hend
  have hs := (acknowledged_sending h hne (nWrites content.length)).uploading.state
  rw [hend.closing] at hs
  cases hs

end

/-- Three bytes whose cursor stands at the first. -/
theorem upload_of_a_rewound_file_never_ends :
    ¬ EndsWithLastByte (init threeByteFs 0 0 0) { threeByteFs with memoryPoolCurrentPosition := 0 } threeByteFile
      (answerMessage .openFileWo .ack 3) (fun _ => answerMessage .writeFile .ack 3) 3 :=
  upload_never_ends ⟨rfl, threeByte_holds.at_cursor (Nat.zero_le _), by decide, fun _ => by decide⟩ (by decide)

/-- The one write of a file of three bytes is acknowledged, and the client goes on transferring. -/
theorem the_last_byte_does_not_end_the_upload : ¬ EndsWithLastByte (init threeByteFs 0 0 0) threeByteFs threeByteFile
    (answerMessage .openFileWo .ack 3) (fun _ => answerMessage .writeFile .ack 3) 3 := by
  intro h
  have hclosing := h.closing
  revert hclosing
  decide +kernel

end Esp32Cam.Mav.BftFtpClient
