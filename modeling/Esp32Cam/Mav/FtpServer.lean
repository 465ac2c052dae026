/-
  Esp32Cam.Mav.FtpServer — the client, a server, and a channel between them.

  The server writes each WriteFile once and answers every request that reaches it. The
  channel keeps everything: a request may be served, and an answer delivered, at any
  later time, any number of times, or never, so messages are delayed, overtaken,
  duplicated and lost. The server writes no bytes twice all the same (`server_writes_once`).

  `acknowledged_below_iff`: in a run, every byte below the offset of the transfer is
  carried by a write of the transfer the server has acknowledged, exactly when no
  acknowledgement is taken before the write that has moved the cursor away from the
  offset is acknowledged (`TakenInOrder`). The client does not look at the sequence
  number: `a_second_acknowledgement_passes_over_a_write` is a run in which the answers
  to a write and to its resend are taken for the answers to two writes.
-/

import Mathlib.Data.List.Nodup
import Esp32Cam.Mav.FtpWrites

namespace Esp32Cam.Mav

open Esp32Cam.Lib Esp32Cam.Bft BftFtpClient

structure Net where
  client : BftFtpClient
  /-- The number of messages sent before the current transfer. -/
  start : Nat
  /-- What the server has written: session, offset and data. -/
  written : List (UInt8 × Nat × List UInt8)
  /-- The requests the server has acknowledged, by their place among the messages sent. -/
  acknowledged : List Nat
  /-- The answers the server has given. -/
  answers : List FileTransferProtocol

namespace Net

def init (fs : SingleBufferRamFileSystem) (sessionId : UInt32) (fileOffset : Int) (fileSize : Nat) : Net :=
  ⟨BftFtpClient.init fs sessionId fileOffset fileSize, 0, [], [], []⟩

inductive Event where
  | onFileBufferingFinished (buffered : BufferedFile)
  | onHrTimer
  | onDelayedSend
  /-- A copy of the request reaches the server. -/
  | serve (request : Nat) (answer : FileTransferProtocol)
  /-- A copy of the answer reaches the client. -/
  | deliver (answer : Nat)

/-- The answer is one to the request: of its operation and, behind the opening, of its session. -/
def isAnswerTo (w a : FileTransferProtocol) : Bool :=
  a.payload.reqOpcode == w.payload.opcode &&
    (a.payload.opcode == Ftp.Op.ack.code || a.payload.opcode == Ftp.Op.nak.code) &&
    (w.payload.opcode == Ftp.Op.openFileWo.code || a.payload.session == w.payload.session)

def requestAt (n : Net) (k : Nat) : Option FileTransferProtocol :=
  match n.client.sent[k]? with
  | some (.fileTransferProtocol w) => some w
  | _ => none

def bytesOf (w : FileTransferProtocol) : UInt8 × Nat × List UInt8 := (w.payload.session, w.payload.offset, w.payload.data)

/-- The bytes of an acknowledged write, written if they have not been. -/
def write (n : Net) (w : FileTransferProtocol) : Net :=
  if bytesOf w ∈ n.written then n else { n with written := n.written ++ [bytesOf w] }

def serve (n : Net) (k : Nat) (a : FileTransferProtocol) : Net :=
  match n.requestAt k with
  | none => n
  | some w =>
    if !isAnswerTo w a then n
    else
      let n := { n with answers := n.answers ++ [a] }
      if a.payload.opcode = Ftp.Op.ack.code ∧ isOfOp .writeFile (.fileTransferProtocol w) then
        { n.write w with acknowledged := n.acknowledged ++ [k] }
      else n

def step (n : Net) : Event → Net
  | .onFileBufferingFinished b =>
    { n with
      start := if accepts n.client (.onFileBufferingFinished b.fs b.file) then n.client.sent.length else n.start
      client := BftFtpClient.step n.client (.onFileBufferingFinished b.fs b.file) }
  | .onHrTimer => { n with client := BftFtpClient.step n.client .onHrTimer }
  | .onDelayedSend => { n with client := BftFtpClient.step n.client .onDelayedSend }
  | .serve k a => n.serve k a
  | .deliver j =>
    match n.answers[j]? with
    | none => n
    | some a => { n with client := BftFtpClient.step n.client (.message (.fileTransferProtocol a)) }

def Acknowledged (n : Net) (i : Nat) : Prop :=
  ∃ k ∈ n.acknowledged, n.start ≤ k ∧ ∃ w ∈ n.requestAt k, Carries n.client.content w i

/-- Progress is acknowledged progress. -/
def AcknowledgedBelow (n : Net) : Prop :=
  n.client.requestRepeat.state = .transferring → ∀ i < n.client.offset, n.Acknowledged i

/-- The cursor stands at the offset, or the write that moved it has been acknowledged: a
    write of the transfer at the offset, which carries bytes of the file up to the cursor. -/
def CursorAcknowledged (n : Net) : Prop :=
  n.client.fs.memoryPoolCurrentPosition = n.client.offset ∨
    ∃ k ∈ n.acknowledged, n.start ≤ k ∧ ∃ w ∈ n.requestAt k, isOfOp .writeFile (.fileTransferProtocol w) = true ∧
      carriesChunk n.client.content (.fileTransferProtocol w) = true ∧ w.payload.offset = n.client.offset ∧
      n.client.fs.memoryPoolCurrentPosition ≤ reach w

def advances (n : Net) : Event → Bool
  | .deliver j =>
    match n.answers[j]? with
    | none => false
    | some a => Advances n.client a
  | _ => false

/-- An acknowledgement is taken once the write that moved the cursor is acknowledged. -/
def TakenInOrder (n : Net) (e : Event) : Prop := n.advances e = true → n.CursorAcknowledged

/-! ## The server -/

/-- The server writes no bytes twice, and has written what it has acknowledged. -/
structure WritesOnce (n : Net) : Prop where
  nodup : n.written.Nodup
  written : ∀ k ∈ n.acknowledged, ∃ w ∈ n.requestAt k, bytesOf w ∈ n.written

section
variable {n n' : Net} {e : Event} {k : Nat} {w a : FileTransferProtocol}

theorem requestAt_eq_some : n.requestAt k = some w ↔ n.client.sent[k]? = some (.fileTransferProtocol w) := by
  unfold requestAt
  split
  · rename_i w' h
    rw [h, Option.some_inj, Option.some_inj]
    exact ⟨fun h => by rw [h], fun h => MavlinkMessage.fileTransferProtocol.inj h⟩
  · rename_i h
    exact ⟨nofun, fun hw => absurd hw (h w)⟩

/-- What has been sent stays where it is among the messages sent. -/
theorem requestAt_mono (h : n.client.sent <+: n'.client.sent) (hk : n.requestAt k = some w) : n'.requestAt k = some w := by
  obtain ⟨ms, hms⟩ := h
  rw [requestAt_eq_some] at hk ⊢
  rw [← hms]
  obtain ⟨hlt, hget⟩ := List.getElem?_eq_some_iff.mp hk
  rw [List.getElem?_append_left hlt, hk]

@[simp] theorem write_client : (n.write w).client = n.client := by unfold write; split <;> rfl
@[simp] theorem write_start : (n.write w).start = n.start := by unfold write; split <;> rfl
@[simp] theorem write_acknowledged : (n.write w).acknowledged = n.acknowledged := by unfold write; split <;> rfl

/-- What serving a request does: an answer and, for an acknowledged write, a write. -/
theorem serve_cases (n : Net) (k : Nat) (a : FileTransferProtocol) : n.serve k a = n ∨
    (∃ w, n.requestAt k = some w ∧ n.serve k a = { n with answers := n.answers ++ [a] }) ∨
    ∃ w, n.requestAt k = some w ∧ isOfOp .writeFile (.fileTransferProtocol w) = true ∧
      n.serve k a = { ({ n with answers := n.answers ++ [a] } : Net).write w with acknowledged := n.acknowledged ++ [k] } := by
  unfold serve
  split
  · exact Or.inl rfl
  · rename_i w hw
    split
    · exact Or.inl rfl
    · dsimp only
      split
      · rename_i hack
        exact Or.inr (Or.inr ⟨w, hw, hack.2, rfl⟩)
      · exact Or.inr (Or.inl ⟨w, hw, rfl⟩)

/-! ## The invariant -/

structure Sound (n : Net) : Prop where
  hasFile : HasFile n.client
  writes : WritesSent n.start n.client
  once : WritesOnce n

theorem init_sound (fs : SingleBufferRamFileSystem) (sessionId : UInt32) (fileOffset : Int) (fileSize : Nat) :
    Sound (init fs sessionId fileOffset fileSize) :=
  ⟨init_hasFile .., writesSent_of_closed (Nat.le_refl _) (Or.inl rfl), List.nodup_nil, nofun⟩

/-- More messages sent, and the same writes. -/
theorem WritesOnce.mono (h : WritesOnce n) (hsent : n.client.sent <+: n'.client.sent) (hw : n'.written = n.written)
    (ha : n'.acknowledged = n.acknowledged) : WritesOnce n' := by
  refine ⟨by rw [hw]; exact h.nodup, fun k hk => ?_⟩
  rw [ha] at hk
  obtain ⟨w, hreq, hmem⟩ := h.written k hk
  exact ⟨w, requestAt_mono hsent hreq, by rw [hw]; exact hmem⟩

theorem WritesOnce.write (h : WritesOnce n) (w : FileTransferProtocol) :
    (n.write w).written.Nodup ∧ bytesOf w ∈ (n.write w).written ∧ n.written ⊆ (n.write w).written := by
  unfold Net.write
  split
  · rename_i hmem
    exact ⟨h.nodup, hmem, List.Subset.refl _⟩
  · rename_i hnew
    refine ⟨?_, List.mem_append_right _ (List.mem_singleton_self _), List.subset_append_left _ _⟩
    rw [List.nodup_append]
    refine ⟨h.nodup, List.nodup_singleton _, fun b hb b' hb' => ?_⟩
    rw [List.mem_singleton.mp hb']
    exact fun heq => hnew (heq ▸ hb)

theorem serve_sound (h : Sound n) (k : Nat) (a : FileTransferProtocol) : Sound (n.serve k a) := by
  rcases serve_cases n k a with heq | ⟨w, _, heq⟩ | ⟨w, hreq, _, heq⟩
  · rw [heq]; exact h
  · rw [heq]
    exact ⟨h.hasFile, h.writes, h.once.nodup, h.once.written⟩
  · rw [heq]
    have hanswered : WritesOnce { n with answers := n.answers ++ [a] } := ⟨h.once.nodup, h.once.written⟩
    obtain ⟨hnodup, hmem, hsub⟩ := hanswered.write w
    refine ⟨by simpa using h.hasFile, by simpa using h.writes, hnodup, fun j hj => ?_⟩
    have hat : ∀ {j w'}, n.requestAt j = some w' →
        Net.requestAt { ({ n with answers := n.answers ++ [a] } : Net).write w with acknowledged := n.acknowledged ++ [k] } j =
          some w' := by
      intro j w' hj
      rw [requestAt_eq_some] at hj ⊢
      simpa using hj
    rcases List.mem_append.mp hj with hj | hj
    · obtain ⟨w', hreq', hmem'⟩ := h.once.written j hj
      exact ⟨w', hat hreq', hsub hmem'⟩
    · rw [List.mem_singleton.mp hj]
      exact ⟨w, hat hreq, hmem⟩

/-- A step of the client within its transfer. -/
theorem client_sound {d : BftFtpClient.Event} (h : Sound n) (ha : accepts n.client d = false) :
    Sound { n with client := BftFtpClient.step n.client d } :=
  ⟨step_hasFile h.hasFile (fun htrue => absurd (htrue.symm.trans ha) nofun), step_writesSent h.hasFile h.writes ha,
    h.once.mono (step_sent_grows _ _) rfl rfl⟩

theorem step_sound (h : Sound n) (e : Event) : Sound (step n e) := by
  cases e with
  | onFileBufferingFinished b =>
    cases ha : accepts n.client (.onFileBufferingFinished b.fs b.file) with
    | true =>
      simp only [step, ha, if_true]
      have hhandover : Handover (.onFileBufferingFinished b.fs b.file) := b.isOpen
      exact ⟨step_hasFile h.hasFile (fun _ => hhandover), step_writesSent_of_accepts ha,
        h.once.mono (step_sent_grows _ _) rfl rfl⟩
    | false =>
      simp only [step, ha, Bool.false_eq_true, if_false]
      exact client_sound h ha
  | onHrTimer => exact client_sound h rfl
  | onDelayedSend => exact client_sound h rfl
  | serve k a => exact serve_sound h k a
  | deliver j =>
    cases hj : n.answers[j]? with
    | none => simp only [step, hj]; exact h
    | some a => simp only [step, hj]; exact client_sound h rfl

/-! ## One step -/

/-- What has been acknowledged stays acknowledged. -/
theorem Acknowledged.mono {i : Nat} (h : n.Acknowledged i) (hsent : n.client.sent <+: n'.client.sent)
    (hc : n'.client.content = n.client.content) (hs : n'.start = n.start) (ha : n.acknowledged ⊆ n'.acknowledged) :
    n'.Acknowledged i := by
  obtain ⟨k, hk, hle, w, hreq, hcarry⟩ := h
  exact ⟨k, ha hk, by rw [hs]; exact hle, w, requestAt_mono hsent hreq, by rw [hc]; exact hcarry⟩

theorem serve_acknowledgedBelow (h : AcknowledgedBelow n) (k : Nat) (a : FileTransferProtocol) :
    AcknowledgedBelow (n.serve k a) := by
  rcases serve_cases n k a with heq | ⟨w, _, heq⟩ | ⟨w, _, _, heq⟩ <;> rw [heq]
  · exact h
  · exact h
  · intro hs i hi
    simp only [write_client] at hs hi
    refine (h hs i hi).mono ?_ ?_ ?_ (List.subset_append_left _ _) <;> simp

/-- A step of the client that does not advance the transfer. -/
theorem client_acknowledgedBelow {d : BftFtpClient.Event} (h : AcknowledgedBelow n) (ha : accepts n.client d = false)
    (hoff : (BftFtpClient.step n.client d).requestRepeat.state = .transferring →
      (BftFtpClient.step n.client d).requestRepeat.fileOffset = 0 ∨ n.client.requestRepeat.state = .transferring ∧
        (BftFtpClient.step n.client d).requestRepeat.fileOffset = n.client.requestRepeat.fileOffset) :
    AcknowledgedBelow { n with client := BftFtpClient.step n.client d } := by
  intro hs i hi
  dsimp only at hs hi
  rcases hoff hs with hzero | ⟨hs', hsame⟩
  · have : (BftFtpClient.step n.client d).offset = 0 := offset_eq (by rw [hzero]; rfl)
    omega
  · have hi' : i < n.client.offset := by
      simp only [offset, hsame] at hi ⊢
      exact hi
    exact (h hs' i hi').mono (step_sent_grows _ _) (step_content ha) rfl (List.Subset.refl _)

/-- An acknowledgement the client goes on with, before every byte below the cursor is acknowledged, or behind. -/
theorem advance_acknowledgedBelow_iff (hi : Sound n) (hp : AcknowledgedBelow n) (ha : Advances n.client a) :
    AcknowledgedBelow { n with client := n.client.writeAcknowledged a } ↔ n.CursorAcknowledged := by
  obtain ⟨hs, hm, hv, he⟩ := ha
  obtain ⟨file, o, hup, ho, hle⟩ := hi.hasFile.uploading hs
  obtain ⟨hup', ho', _, _⟩ := writeTaken_uploading hup he
  have hs' : (n.client.writeAcknowledged a).requestRepeat.state = .transferring := by
    simpa [writeAcknowledged, push, startOnce] using hup'.state
  have hoff' : (n.client.writeAcknowledged a).offset = n.client.fs.memoryPoolCurrentPosition :=
    offset_eq (by simpa [writeAcknowledged, push, startOnce] using ho')
  have hoff : n.client.offset = o := offset_eq ho
  have hgrows : n.client.sent <+: (n.client.writeAcknowledged a).sent := by
    rw [writeAcknowledged_sent]; exact List.prefix_append _ _
  have hcontent : (n.client.writeAcknowledged a).content = n.client.content := by
    rw [← step_advances ⟨hs, hm, hv, he⟩]; exact step_content rfl
  unfold CursorAcknowledged
  rw [hoff]
  constructor
  · intro h
    by_cases heq : n.client.fs.memoryPoolCurrentPosition = o
    · exact Or.inl heq
    -- the byte before the cursor is carried by a write at the offset: the others end at it
    obtain ⟨k, hk, hstart, w, hreq, hcarry⟩ := h hs' (n.client.fs.memoryPoolCurrentPosition - 1) (by dsimp only; omega)
    obtain ⟨w', hreq', _⟩ := hi.once.written k hk
    have hsame : Net.requestAt { n with client := n.client.writeAcknowledged a } k = some w' := requestAt_mono hgrows hreq'
    obtain rfl : w' = w := Option.some_inj.mp (hsame.symm.trans hreq)
    refine Or.inr ⟨k, hk, hstart, w', hreq', hcarry.isWrite, ?_, ?_⟩
    · have := hcarry.agrees
      rwa [hcontent] at this
    · have hmem : MavlinkMessage.fileTransferProtocol w' ∈ n.client.sent.drop n.start := by
        have hsent := requestAt_eq_some.mp hreq'
        rw [List.mem_iff_getElem?]
        exact ⟨k - n.start, by rw [List.getElem?_drop, Nat.add_sub_cancel' hstart, hsent]⟩
      have hwrite := hi.writes.writes hs w' hmem hcarry.isWrite
      have hreach := hcarry.reach
      rw [hoff] at hwrite
      omega
  · intro h _ i hlt
    dsimp only at hlt
    rw [hoff'] at hlt
    by_cases hio : i < o
    · exact (hp hs i (by rw [hoff]; exact hio)).mono hgrows hcontent rfl (List.Subset.refl _)
    · rcases h with h | ⟨k, hk, hstart, w, hreq, hwrite, hagree, hwo, hreach⟩
      · omega
      · refine ⟨k, hk, hstart, w, requestAt_mono hgrows hreq, hwrite, ?_, by omega, by omega⟩
        rw [hcontent]
        exact hagree

theorem step_acknowledgedBelow_iff (hi : Sound n) (hp : AcknowledgedBelow n) (e : Event) :
    AcknowledgedBelow (step n e) ↔ TakenInOrder n e := by
  cases e with
  | onFileBufferingFinished b =>
    refine iff_of_true ?_ (fun h => by cases h)
    cases ha : accepts n.client (.onFileBufferingFinished b.fs b.file) with
    | true =>
      simp only [step, ha, if_true, step_accepted ha]
      intro hs
      cases hs
    | false =>
      simp only [step, ha, Bool.false_eq_true, if_false, step_not_accepted ha]
      exact hp
  | onHrTimer =>
    refine iff_of_true ?_ (fun h => by cases h)
    exact client_acknowledgedBelow hp rfl fun hs => Or.inr ⟨onHrTimer_state hs, onHrTimer_fileOffset _⟩
  | onDelayedSend =>
    refine iff_of_true ?_ (fun h => by cases h)
    have hkeep : (BftFtpClient.step n.client .onDelayedSend).requestRepeat = n.client.requestRepeat := by
      simp only [BftFtpClient.step, onDelayedSend]
      split
      · rfl
      · exact respond_requestRepeat _ _
    exact client_acknowledgedBelow hp rfl fun hs => Or.inr ⟨by rw [← hkeep]; exact hs, by rw [hkeep]⟩
  | serve k a => exact iff_of_true (serve_acknowledgedBelow hp k a) (fun h => by cases h)
  | deliver j =>
    cases hj : n.answers[j]? with
    | none =>
      simp only [TakenInOrder, advances, step, hj]
      exact iff_of_true hp (fun h => by cases h)
    | some a =>
      simp only [TakenInOrder, advances, step, hj, decide_eq_true_eq]
      by_cases ha : Advances n.client a
      · rw [step_advances ha, advance_acknowledgedBelow_iff hi hp ha]
        exact ⟨fun h _ => h, fun h => h ha⟩
      · refine iff_of_true ?_ fun h => absurd h ha
        exact client_acknowledgedBelow hp rfl fun hs => (process_takes n.client a).fileOffset ha hs

end

/-! ## Runs -/

/-- In every run the server writes no bytes twice, and has written what it has acknowledged. -/
theorem server_writes_once (fs : SingleBufferRamFileSystem) (sessionId : UInt32) (fileOffset : Int) (fileSize : Nat)
    (es : List Event) : Always step WritesOnce (init fs sessionId fileOffset fileSize) es :=
  (always_of_step (I := Sound) (fun _ e h => step_sound h e) (init_sound ..) es).mono fun _ h => h.once

/-- **Acknowledged progress.** Whatever the channel does, the bytes below the offset are
    acknowledged in every state exactly when every acknowledgement is taken in order. -/
theorem acknowledged_below_iff (fs : SingleBufferRamFileSystem) (sessionId : UInt32) (fileOffset : Int) (fileSize : Nat)
    (es : List Event) : Always step AcknowledgedBelow (init fs sessionId fileOffset fileSize) es ↔
      Along step TakenInOrder (init fs sessionId fileOffset fileSize) es :=
  always_iff_along (I := Sound) (fun _ e h _ _ => step_sound h e) (fun _ e h hp => step_acknowledgedBelow_iff h hp e)
    (init_sound ..) nofun

/-- The two chunks of a file; the first is resent, and both its writes are acknowledged. -/
def resentWrite : List Event :=
  [.onFileBufferingFinished ⟨twoChunkFs, threeByteFile, _, _, twoChunk_holds⟩, .onDelayedSend,
    .serve 0 (answerMessage .openFileWo .ack 3), .deliver 0, .onHrTimer, .onDelayedSend,
    .serve 1 (answerMessage .writeFile .ack 3), .serve 2 (answerMessage .writeFile .ack 3), .deliver 1, .deliver 2]

/-- The offset passes over the second write, which has not reached the server. -/
theorem a_second_acknowledgement_passes_over_a_write : ¬ Always step AcknowledgedBelow (init twoChunkFs 0 0 0) resentWrite := by
  intro h
  have hlast : AcknowledgedBelow (run step (init twoChunkFs 0 0 0) resentWrite) := h.last
  obtain ⟨k, hk, _, w, hw, hcarry⟩ := hlast (by decide +kernel) 239 (by decide +kernel)
  have hreach := hcarry.reach
  have hall : ∀ k ∈ (run step (init twoChunkFs 0 0 0) resentWrite).acknowledged,
      ∀ w ∈ (run step (init twoChunkFs 0 0 0) resentWrite).requestAt k, reach w ≤ 239 := by decide +kernel
  have := hall k hk w hw
  omega

end Net

end Esp32Cam.Mav
