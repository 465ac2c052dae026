/-
  Esp32Cam.Mav.FtpWrites — the writes of one transfer.

  `sent.drop start` are the messages of the transfer that began behind `start` messages.
  `WritesSent start` is what a run keeps of them (`step_writesSent`): a write ends at or
  below the offset, or begins at it and carries one chunk at most; and the cursor stands
  at the offset, or no less than one chunk behind it.

  `Carries bytes w i` says that the write `w` carries the byte `i` of the file.
-/

import Esp32Cam.Mav.FtpChunk

namespace Esp32Cam.Mav.BftFtpClient

open Esp32Cam.Lib Esp32Cam.Bft

def reach (w : FileTransferProtocol) : Nat := w.payload.offset + w.payload.size.toNat

structure Carries (bytes : List UInt8) (w : FileTransferProtocol) (i : Nat) : Prop where
  isWrite : isOfOp .writeFile (.fileTransferProtocol w) = true
  agrees : carriesChunk bytes (.fileTransferProtocol w) = true
  offset : w.payload.offset ≤ i
  reach : i < reach w

def offset (c : BftFtpClient) : Nat := c.requestRepeat.fileOffset.toNat

/-- The position one chunk behind the offset. -/
def window (c : BftFtpClient) : Nat := min (c.offset + Ftp.kMaxDataLength) c.content.length

structure WritesSent (start : Nat) (c : BftFtpClient) : Prop where
  start_le : start ≤ c.sent.length
  creating : c.requestRepeat.state = .creatingSession → ∀ m ∈ c.sent.drop start, isOfOp .writeFile m = false
  writes : c.requestRepeat.state = .transferring → ∀ w, .fileTransferProtocol w ∈ c.sent.drop start →
    isOfOp .writeFile (.fileTransferProtocol w) = true →
    reach w ≤ c.offset ∨ w.payload.offset = c.offset ∧ reach w ≤ c.window
  cursor : c.requestRepeat.state = .transferring →
    c.fs.memoryPoolCurrentPosition = c.offset ∨ c.window ≤ c.fs.memoryPoolCurrentPosition

section
variable {c : BftFtpClient} {file : File} {bytes : List UInt8} {p o start : Nat}

theorem writesSent_of_closed (hle : start ≤ c.sent.length) (h : c.requestRepeat.state = .idle ∨
    c.requestRepeat.state = .closingSession ∨ c.requestRepeat.state = .max) : WritesSent start c := by
  refine ⟨hle, ?_, ?_, ?_⟩ <;> intro hs <;> rw [hs] at h <;> rcases h with h | h | h <;> cases h

theorem offset_eq (ho : c.requestRepeat.fileOffset = o) : c.offset = o := by
  rw [offset, ho]
  exact Int.toNat_natCast o

theorem writeRequest_offset (h : Uploading file bytes p c) (ho : c.requestRepeat.fileOffset = o) (hle : o ≤ p) :
    c.writeRequest.payload.offset = o := by
  have hlt := h.lt
  show uint32 c.requestRepeat.fileOffset = o
  rw [ho]
  exact uint32_of_lt (by omega)

theorem writeRequest_reach (h : Uploading file bytes p c) (ho : c.requestRepeat.fileOffset = o) (hle : o ≤ p) :
    reach c.writeRequest = o + (chunkAt bytes p).length := by
  have hsize : c.writeRequest.payload.size = UInt8.ofNat (chunkAt bytes p).length := by
    show UInt8.ofNat c.nextChunk.2.length = _
    rw [h.nextChunk]
  rw [reach, writeRequest_offset h ho hle, hsize, size_chunkAt]

theorem mem_drop_append {ms : List MavlinkMessage} {m m' : MavlinkMessage} (hle : start ≤ ms.length)
    (h : m' ∈ (ms ++ [m]).drop start) : m' ∈ ms.drop start ∨ m' = m := by
  rw [List.drop_append_of_le_length hle, List.mem_append, List.mem_singleton] at h
  exact h

/-- A write is formed at the offset, out of what is behind the cursor. -/
theorem respond_writesSent (hf : HasFile c) (hw : WritesSent start c) (hs : c.requestRepeat.state = .transferring)
    (m : MavlinkMessage) : WritesSent start (c.respond m) := by
  obtain ⟨file, o, hup, ho, hle⟩ := hf.uploading hs
  have hsent : (c.respond m).sent = c.sent ++ [.fileTransferProtocol c.writeRequest] := by
    rw [respond_eq, request_write hs]
  have hres := hup.respond m
  have hoff : (c.respond m).offset = o := offset_eq (by rw [respond_requestRepeat]; exact ho)
  have hoff' : c.offset = o := offset_eq ho
  have hlen := length_chunkAt c.content c.fs.memoryPoolCurrentPosition
  have hin := hup.holds.inside
  have hwin : (c.respond m).window = c.window := by
    rw [window, window, hoff, hoff', content_of_holds hres.holds]
  have hwindow : c.window = min (o + Ftp.kMaxDataLength) c.content.length := by rw [window, hoff']
  refine ⟨by rw [hsent, List.length_append]; exact Nat.le_add_right_of_le hw.start_le, ?_, ?_, ?_⟩
  · intro h
    rw [hres.state] at h
    cases h
  · intro _ w hmem hwrite
    rw [hsent] at hmem
    rw [hoff, hwin]
    rcases mem_drop_append hw.start_le hmem with hmem | heq
    · have hold := hw.writes hs w hmem hwrite
      rw [hoff'] at hold
      exact hold
    · obtain rfl := MavlinkMessage.fileTransferProtocol.inj heq
      refine Or.inr ⟨writeRequest_offset hup ho hle, ?_⟩
      rw [writeRequest_reach hup ho hle, hwindow]
      omega
  · intro _
    have hcur := hw.cursor hs
    rw [hres.holds.current, hoff, hwin]
    rw [hoff'] at hcur
    right
    omega

theorem granted_writesSent {m : FileTransferProtocol} (hf : HasFile c) (hw : WritesSent start c)
    (hs : c.requestRepeat.state = .creatingSession) : WritesSent start (c.granted m) := by
  obtain ⟨file, hfile, hh⟩ := hf.held (Or.inl hs)
  obtain ⟨hup, ho, _, _⟩ := granted_uploading (m := m) hfile hh
  have hoff : (c.granted m).offset = 0 := offset_eq ho
  refine ⟨by rw [granted_sent]; exact hw.start_le, ?_, ?_, ?_⟩
  · intro h
    rw [hup.state] at h
    cases h
  · intro _ w hmem hwrite
    rw [granted_sent] at hmem
    rw [hw.creating hs _ hmem] at hwrite
    cases hwrite
  · intro _
    exact Or.inl (by rw [hup.holds.current, hoff])

theorem writeTaken_writesSent (hf : HasFile c) (hw : WritesSent start c) (hs : c.requestRepeat.state = .transferring)
    (he : c.atEof = false) : WritesSent start c.writeTaken := by
  obtain ⟨file, o, hup, ho, hle⟩ := hf.uploading hs
  obtain ⟨hup', ho', _, _⟩ := writeTaken_uploading hup he
  have hsent : c.writeTaken.sent = c.sent := by rw [writeTaken_eq]
  have hoff := offset_eq ho'
  have hoff' := offset_eq ho
  refine ⟨by rw [hsent]; exact hw.start_le, ?_, ?_, ?_⟩
  · intro h
    rw [hup'.state] at h
    cases h
  · intro _ w hmem hwrite
    rw [hsent] at hmem
    have hcontent : c.writeTaken.content = c.content := content_of_holds hup'.holds
    rw [hoff, window, hoff, hcontent]
    have hold := hw.writes hs w hmem hwrite
    have hcur := hw.cursor hs
    rw [window, hoff'] at hold hcur
    -- a write at the old offset ends before the cursor, or the cursor has not moved
    omega
  · intro _
    exact Or.inl (by rw [hup'.holds.current, hoff])

/-- The timer and the subscribers do not touch what has been sent. -/
theorem startOnce_writesSent (h : WritesSent start c) : WritesSent start c.startOnce :=
  ⟨h.start_le, h.creating, h.writes, h.cursor⟩

theorem push_writesSent (h : WritesSent start c) (e : TransferUpdateEvent) : WritesSent start (c.push e) :=
  ⟨h.start_le, h.creating, h.writes, h.cursor⟩

theorem sessionGranted_writesSent {m : FileTransferProtocol} (hf : HasFile c) (hw : WritesSent start c)
    (hs : c.requestRepeat.state = .creatingSession) : WritesSent start (c.sessionGranted m) := by
  have h := respond_writesSent (granted_hasFile hf hs) (granted_writesSent (m := m) hf hw hs) (granted_state c m)
    (.fileTransferProtocol m)
  exact startOnce_writesSent h

theorem writeAcknowledged_writesSent {m : FileTransferProtocol} (hf : HasFile c) (hw : WritesSent start c)
    (hs : c.requestRepeat.state = .transferring) : WritesSent start (c.writeAcknowledged m) := by
  cases he : c.atEof with
  | true =>
    refine writesSent_of_closed ?_ (Or.inr (Or.inl ?_))
    · rw [writeAcknowledged_sent, List.length_append]
      exact Nat.le_add_right_of_le hw.start_le
    · simp [writeAcknowledged, push, startOnce, writeTaken_eq, he]
  | false =>
    have h := respond_writesSent (writeTaken_hasFile hf hs he) (writeTaken_writesSent hf hw hs he) (writeTaken_state hs he)
      (.fileTransferProtocol m)
    exact push_writesSent (startOnce_writesSent h) _

theorem Takes.writesSent {c' : BftFtpClient} {m : FileTransferProtocol} (ht : Takes c m c') (hf : HasFile c)
    (hw : WritesSent start c) : WritesSent start c' := by
  cases ht with
  | nothing => exact hw
  | stopped => exact ⟨hw.start_le, hw.creating, hw.writes, hw.cursor⟩
  | granted hs _ => exact sessionGranted_writesSent hf hw hs
  | acknowledged hs _ _ => exact writeAcknowledged_writesSent hf hw hs
  | denied | closed | notClosed => exact writesSent_of_closed hw.start_le (Or.inl rfl)
  | refused =>
    refine writesSent_of_closed ?_ (Or.inr (Or.inl ?_))
    · rw [writeRefused_sent, List.length_append]
      exact Nat.le_add_right_of_le hw.start_le
    · simp [writeRefused, startOnce, handleClosingSessionTransition]

/-- The resend puts the cursor back at the offset. -/
theorem Fires.writesSent {c' : BftFtpClient} (ht : Fires c c') (hf : HasFile c) (hw : WritesSent start c) :
    WritesSent start c' := by
  cases ht with
  | idle _ hs => exact writesSent_of_closed hw.start_le (Or.inl hs)
  | request _ _ => exact ⟨hw.start_le, hw.creating, hw.writes, hw.cursor⟩
  | max _ hs => exact writesSent_of_closed hw.start_le (Or.inr (Or.inr hs))
  | givenUp => exact writesSent_of_closed hw.start_le (Or.inl rfl)
  | closing => exact writesSent_of_closed hw.start_le (Or.inr (Or.inl rfl))
  | write hlt hs =>
    obtain ⟨file, o, hup, ho, hle⟩ := hf.uploading hs
    obtain ⟨hup', hrest⟩ := resend_uploading hup ho hle
    generalize c.stopTimer.handleFailedAttemptCommon.resendFileTransferRequest.startOnce = c' at *
    obtain ⟨ho', hsent⟩ := hrest
    have hoff := offset_eq ho'
    have hoff' := offset_eq ho
    have hcontent : c'.content = c.content := content_of_holds hup'.holds
    refine ⟨by rw [hsent]; exact hw.start_le, ?_, ?_, ?_⟩
    · intro h
      rw [hup'.state] at h
      cases h
    · intro _ w hmem hwrite
      rw [hsent] at hmem
      have hold := hw.writes hs w hmem hwrite
      rw [window, hoff'] at hold
      rw [window, hoff, hcontent]
      exact hold
    · intro _
      exact Or.inl (by rw [hup'.holds.current, hoff])

theorem onDelayedSend_writesSent (hf : HasFile c) (hw : WritesSent start c) : WritesSent start c.onDelayedSend := by
  unfold onDelayedSend
  split
  · exact hw
  by_cases hs : c.requestRepeat.state = .transferring
  · exact respond_writesSent (c := { c with delayedSends := c.delayedSends - 1 }) ⟨hf.held, hf.offset⟩
      ⟨hw.start_le, hw.creating, hw.writes, hw.cursor⟩ hs _
  · rw [respond_eq]
    dsimp only
    rw [if_neg hs]
    refine ⟨?_, ?_, fun h => absurd h hs, fun h => absurd h hs⟩
    · rw [List.length_append]
      exact Nat.le_add_right_of_le hw.start_le
    · intro hc w hmem
      rcases mem_drop_append hw.start_le hmem with hmem | rfl
      · exact hw.creating hc w hmem
      · rw [request, show ({ c with delayedSends := c.delayedSends - 1 } : BftFtpClient).requestRepeat.state = .creatingSession
          from hc]
        rfl

/-- Every step of the transfer keeps the invariant of its writes. -/
theorem step_writesSent {e : Event} (hf : HasFile c) (hw : WritesSent start c) (ha : accepts c e = false) :
    WritesSent start (step c e) := by
  cases e with
  | onFileBufferingFinished fs file =>
    rw [step_not_accepted ha]
    exact hw
  | message m =>
    cases m with
    | fileTransferProtocol m => exact (process_takes c m).writesSent hf hw
    | other => exact hw
  | onHrTimer => exact (onHrTimer_fires c).writesSent hf hw
  | onDelayedSend => exact onDelayedSend_writesSent hf hw

/-- A transfer begins with no writes. -/
theorem step_writesSent_of_accepts {e : Event} (ha : accepts c e = true) : WritesSent c.sent.length (step c e) := by
  cases e with
  | onFileBufferingFinished fs file =>
    rw [step_accepted ha]
    refine ⟨Nat.le_refl _, ?_, nofun, nofun⟩
    intro _ m hm
    have hnone : m ∈ c.sent.drop c.sent.length := hm
    rw [List.drop_length] at hnone
    cases hnone
  | message | onHrTimer | onDelayedSend => cases ha

end

end Esp32Cam.Mav.BftFtpClient
