/-
  Esp32Cam.Bft.FlashVerification — the bytes behind the two checksums of a transfer.

  `roundBytes` are the bytes a round takes the checksum of before it writes the page, and
  `readBack` those the verification reads after the last chunk. `Sums` ties both checksums
  to such bytes: every round keeps it (`writePage_sums`), so does a call, and the
  verification adds what it reads (`readFlashMemoryCrc32_sums`).

  So at every verification of a transfer, in as many calls as there are and whatever the
  device does, bytes read back that differ from those written, and do so inside four bytes
  in a row, are found out (`burst_is_caught`).
-/

import Esp32Cam.Lib.PartialRun
import Esp32Cam.Ut.Crc32Register
import Esp32Cam.Bft.FlashPlan

namespace Esp32Cam.Bft.Flusher

open Esp32Cam.Lib Esp32Cam.Lib.PartialRun Esp32Cam.Ut Esp32Cam.Sys

/-! ## The bytes -/

/-- What a round puts into the page from the write address on. -/
def roundBytes (k : Kind) (s : Flusher) (file : File) (isLastChunk : Bool) : List UInt8 :=
  match s.tryReadCurrentFlashMemoryPageContent with
  | (_, none) => []
  | (s, some pageBuffer) =>
    let (s, pageBuffer, nBytesWrittenIntoPage, _) := k.implementor.formatFlashMemoryPageContent s pageBuffer file isLastChunk
    (pageBuffer.drop (s.geometry.convertAddressIntoWriteBlockInnerOffset s.flushingState.flashMemoryAddress)).take
      nBytesWrittenIntoPage

/-- What the rounds of `writeFile` put into their pages. -/
def loopBytes (k : Kind) (file : File) (bufferSize : Nat) (isLastChunk : Bool) : Nat → Flusher → Nat → List UInt8
  | 0, _, _ => []
  | fuel + 1, s, nProcessedTotal =>
    if nProcessedTotal = bufferSize then []
    else
      let s := s.preErase
      if nProcessedTotal > bufferSize then []
      else roundBytes k s file isLastChunk ++ match writePage k.implementor s file isLastChunk with
        | .next s nProcessed => loopBytes k file bufferSize isLastChunk fuel s (nProcessedTotal + nProcessed)
        | _ => []

/-- What the verification reads from an address up to the end, as far as the reads succeed. -/
def readBack (flashMemoryAddress : Nat) : Nat → FlashMemory → Nat → List UInt8
  | 0, _, _ => []
  | fuel + 1, d, flashMemoryReadAddress =>
    if flashMemoryReadAddress = flashMemoryAddress then []
    else
      let bufferReadSize := min (u32Sub flashMemoryAddress flashMemoryReadAddress) d.geometry.writeBlockSize
      match d.readBlock (d.geometry.convertAddressIntoWriteBlockOffset flashMemoryReadAddress)
          (d.geometry.convertAddressIntoWriteBlockInnerOffset flashMemoryReadAddress) bufferReadSize with
      | (_, none) => []
      | (d, some buffer) => buffer ++ readBack flashMemoryAddress fuel d (u32 (flashMemoryReadAddress + bufferReadSize))

def verifiedBytes (s : Flusher) : List UInt8 :=
  if !s.flushingState.ongoing then []
  else readBack s.flushingState.flashMemoryAddress
    (u32Sub s.flushingState.flashMemoryAddress s.flushingState.baseFlashMemoryAddress + 1) s.flashMemory
    s.flushingState.baseFlashMemoryAddress

/-! ## The checksums -/

def crc (s : Flusher) : Crc32CalculationState := s.flushingState.crc32CalculationState

/-- The two checksums are those of the bytes written and of the bytes read back. -/
structure Sums (c : Crc32CalculationState) (written readBack : List UInt8) : Prop where
  buffer : c.bufferReadChecksum.checksum = calculateCrc32 written
  flash : c.flashMemoryReadChecksum.checksum = calculateCrc32 readBack

theorem calculateCrc32_append (a b : List UInt8) : calculateCrc32 (a ++ b) = updateCrc32 (calculateCrc32 a) b :=
  updateCrc32_append getInitialCrc32Value a b

/-- The checksums of different bytes of one length are told apart where the difference is short. -/
theorem Sums.isMatch {c : Crc32CalculationState} {written readBack : List UInt8} (h : Sums c written readBack)
    (hdiffer : DifferInWindow written readBack) : c.isMatch = false := by
  rw [Crc32CalculationState.isMatch, h.buffer, h.flash, beq_eq_false_iff_ne]
  exact updateCrc32_ne_of_window hdiffer getInitialCrc32Value

section
variable {k : Kind} {s s' : Flusher} {file : File} {written : List UInt8}

theorem preErase_crc (s : Flusher) : s.preErase.crc = s.crc := by
  unfold preErase
  split
  · rfl
  · rfl

theorem format_flushingState (k : Kind) (s : Flusher) (pageBuffer : List UInt8) (file : File) (isLastChunk : Bool) :
    (k.implementor.formatFlashMemoryPageContent s pageBuffer file isLastChunk).1.flushingState = s.flushingState := by
  rw [k.format_eq]
  unfold readIntoPage
  dsimp only
  split
  · rfl
  · rfl

/-- A round that goes on or returns has taken the checksum of its bytes. -/
theorem writePage_sums (h : Sums s.crc written []) (isLastChunk : Bool)
    (hend : (∃ n, writePage k.implementor s file isLastChunk = .next s' n) ∨
      writePage k.implementor s file isLastChunk = .returned s') :
    Sums s'.crc (written ++ roundBytes k s file isLastChunk) [] := by
  have hread : s.tryReadCurrentFlashMemoryPageContent.1.flushingState = s.flushingState := rfl
  rcases htry : s.tryReadCurrentFlashMemoryPageContent with ⟨s₁, none | pageBuffer⟩
  · rw [htry] at hread
    simp only [writePage, htry, reduceCtorEq, exists_false, false_or, Flow.returned.injEq] at hend
    simp only [roundBytes, htry, List.append_nil]
    rw [← hend, crc, hread]
    exact h
  · rw [htry] at hread
    have hstate := format_flushingState k s₁ pageBuffer file isLastChunk
    rcases hformat : k.implementor.formatFlashMemoryPageContent s₁ pageBuffer file isLastChunk with
      ⟨s₂, page, nBytesWrittenIntoPage, nProcessed⟩
    rw [hformat] at hstate
    simp only [writePage, htry, hformat] at hend
    simp only [roundBytes, htry, hformat]
    have hs₂ : s₂.crc = s.crc := congrArg FlushingState.crc32CalculationState (hstate.trans hread)
    -- the checksum is taken before the page is written, and the write keeps it
    have hcrc : Sums ((s₂.updatePageBufferCrc32 page nBytesWrittenIntoPage).tryWriteIntoCurrentFlashMemoryPage page).1.crc
        (written ++ (page.drop (s₂.geometry.convertAddressIntoWriteBlockInnerOffset
          s₂.flushingState.flashMemoryAddress)).take nBytesWrittenIntoPage) [] := by
      refine ⟨?_, ?_⟩
      · rw [calculateCrc32_append, ← h.buffer, ← hs₂]
        rfl
      · rw [← h.flash, ← hs₂]
        rfl
    by_cases hzero : nProcessed = 0
    · rw [if_pos hzero] at hend
      rcases hend with ⟨n, hend⟩ | hend
      · cases hend
      · cases hend
    · rw [if_neg hzero] at hend
      rcases hwrite : (s₂.updatePageBufferCrc32 page nBytesWrittenIntoPage).tryWriteIntoCurrentFlashMemoryPage page with
        ⟨s₃, ok⟩
      rw [hwrite] at hend hcrc
      cases ok with
      | false =>
        rcases hend with ⟨n, hend⟩ | hend
        · cases hend
        · cases hend
          exact hcrc
      | true =>
        rcases hend with ⟨n, hend⟩ | hend
        · cases hend
          exact hcrc
        · cases hend

theorem writeFile_sums {bufferSize fuel total : Nat} {isLastChunk : Bool} (h : Sums s.crc written [])
    (hend : (∃ last, writeFile k.implementor file bufferSize isLastChunk fuel s total = .next s' last) ∨
      writeFile k.implementor file bufferSize isLastChunk fuel s total = .returned s') :
    Sums s'.crc (written ++ loopBytes k file bufferSize isLastChunk fuel s total) [] := by
  induction fuel generalizing s total written with
  | zero =>
    rcases hend with ⟨last, hend⟩ | hend
    · cases hend
    · cases hend
  | succ fuel ih =>
    rw [writeFile] at hend
    rw [loopBytes]
    by_cases hdone : total = bufferSize
    · rw [if_pos hdone] at hend ⊢
      rcases hend with ⟨last, hend⟩ | hend
      · cases hend
        rwa [List.append_nil]
      · cases hend
    · rw [if_neg hdone] at hend ⊢
      have h : Sums s.preErase.crc written [] := by rwa [preErase_crc]
      dsimp only at hend ⊢
      by_cases hover : total > bufferSize
      · rw [if_pos hover] at hend ⊢
        rcases hend with ⟨last, hend⟩ | hend
        · cases hend
          rwa [List.append_nil]
        · cases hend
      · rw [if_neg hover] at hend ⊢
        cases hround : writePage k.implementor s.preErase file isLastChunk with
        | next s₁ n =>
          rw [hround] at hend
          rw [← List.append_assoc]
          exact ih (writePage_sums h isLastChunk (.inl ⟨n, hround⟩)) hend
        | returned s₁ =>
          rw [hround] at hend
          rcases hend with ⟨last, hend⟩ | hend
          · cases hend
          · cases hend
            rw [List.append_nil]
            exact writePage_sums h isLastChunk (.inr hround)
        | panicked =>
          rw [hround] at hend
          rcases hend with ⟨last, hend⟩ | hend
          · cases hend
          · cases hend
        | exhausted =>
          rw [hround] at hend
          rcases hend with ⟨last, hend⟩ | hend
          · cases hend
          · cases hend

/-- Every read of the verification that succeeds is taken into the checksum. -/
theorem readFlashMemoryCrc32_sums {fuel a : Nat} {before : List UInt8} (h : Sums s.crc written before) :
    Sums (readFlashMemoryCrc32 fuel s a).crc written
      (before ++ readBack s.flushingState.flashMemoryAddress fuel s.flashMemory a) := by
  induction fuel generalizing s a before with
  | zero =>
    rw [readBack, List.append_nil]
    exact h
  | succ fuel ih =>
    rw [readFlashMemoryCrc32, readBack]
    by_cases ha : a = s.flushingState.flashMemoryAddress
    · rw [if_pos ha, if_pos ha, List.append_nil]
      exact h
    · rw [if_neg ha, if_neg ha]
      dsimp only [geometry]
      generalize s.flashMemory.readBlock (s.flashMemory.geometry.convertAddressIntoWriteBlockOffset a)
        (s.flashMemory.geometry.convertAddressIntoWriteBlockInnerOffset a)
        (min (u32Sub s.flushingState.flashMemoryAddress a) s.flashMemory.geometry.writeBlockSize) = r
      rcases r with ⟨d, none | buffer⟩
      · rw [List.append_nil]
        exact h
      · rw [← List.append_assoc]
        refine ih ⟨h.buffer, ?_⟩
        rw [calculateCrc32_append, ← h.flash]
        rfl

theorem updateFlashMemoryCrc32_sums (h : Sums s.crc written []) :
    Sums s.updateFlashMemoryCrc32.crc written s.verifiedBytes := by
  unfold updateFlashMemoryCrc32 verifiedBytes
  split
  · exact h
  · exact readFlashMemoryCrc32_sums h

end

/-! ## Calls -/

def callBytes (k : Kind) (memoryPartitionTable : File → Option Nat) (s : Flusher) (c : Call) : List UInt8 :=
  match enter memoryPartitionTable s c with
  | none => []
  | some s => loopBytes k c.file c.chunk.length c.isLastChunk (c.chunk.length + 1) s 0

/-- The state in which a call verifies what has been written, if it does. -/
def verifies (k : Kind) (memoryPartitionTable : File → Option Nat) (s : Flusher) (c : Call) : Option Flusher :=
  (enter memoryPartitionTable s c).bind fun s =>
    match writeChunk k s c with
    | .next s true => some s
    | _ => none

/-- A flusher, and what has been put into pages in the transfer under way. -/
structure VerifiedTransfer where
  flusher : Flusher
  written : List UInt8

namespace VerifiedTransfer

/-- A call that verifies ends the transfer. -/
def step (k : Kind) (memoryPartitionTable : File → Option Nat) (t : VerifiedTransfer) (c : Call) : Option VerifiedTransfer :=
  (call k memoryPartitionTable t.flusher c).map fun s =>
    { flusher := s
      written := if (verifies k memoryPartitionTable t.flusher c).isSome then []
        else t.written ++ callBytes k memoryPartitionTable t.flusher c }

/-- Bytes read back that differ from those written in one short place only do not match. -/
def Caught (k : Kind) (memoryPartitionTable : File → Option Nat) (t : VerifiedTransfer) (c : Call) : Prop :=
  ∀ s, verifies k memoryPartitionTable t.flusher c = some s →
    DifferInWindow (t.written ++ callBytes k memoryPartitionTable t.flusher c) s.verifiedBytes →
    s.updateFlashMemoryCrc32.crc.isMatch = false

def Inv (t : VerifiedTransfer) : Prop := Sums t.flusher.crc t.written []

end VerifiedTransfer

section
variable {k : Kind} {memoryPartitionTable : File → Option Nat} {s s' : Flusher} {c : Call} {t t' : VerifiedTransfer}

theorem enter_crc (h : enter memoryPartitionTable s c = some s') : s'.crc = s.crc := by
  unfold enter at h
  rw [start_fs] at h
  rcases Option.map_eq_some_iff.mp h with ⟨s₂, hs₂, rfl⟩
  rcases Option.map_eq_some_iff.mp hs₂ with ⟨s₁, hstart, rfl⟩
  have hcrc : s₁.crc = s.crc := by
    unfold start at hstart
    split at hstart
    · rw [Option.some_inj.mp hstart]
    · rcases Option.map_eq_some_iff.mp hstart with ⟨address, -, rfl⟩
      rfl
  exact (preErase_crc { s₁ with fs := c.fs }).trans hcrc

/-- The loop of a call, whether it comes to its end or returns. -/
theorem VerifiedTransfer.Inv.writeChunk (h : t.Inv) (henter : enter memoryPartitionTable t.flusher c = some s)
    (hend : (∃ last, writeChunk k s c = .next s' last) ∨ writeChunk k s c = .returned s') :
    Sums s'.crc (t.written ++ callBytes k memoryPartitionTable t.flusher c) [] := by
  have hsums : Sums s.crc t.written [] := by
    rw [enter_crc henter]
    exact h
  have hbytes : callBytes k memoryPartitionTable t.flusher c =
      loopBytes k c.file c.chunk.length c.isLastChunk (c.chunk.length + 1) s 0 := by rw [callBytes, henter]
  rw [hbytes]
  exact writeFile_sums hsums hend

theorem VerifiedTransfer.Inv.caught (h : t.Inv) : t.Caught k memoryPartitionTable c := by
  intro s hverifies hdiffer
  rcases Option.bind_eq_some_iff.mp hverifies with ⟨s₀, henter, hend⟩
  split at hend
  · rename_i s₁ hnext
    rcases Option.some_inj.mp hend with rfl
    exact (updateFlashMemoryCrc32_sums (h.writeChunk henter (.inl ⟨true, hnext⟩))).isMatch hdiffer
  · cases hend

theorem VerifiedTransfer.Inv.step (h : t.Inv) (hstep : t.step k memoryPartitionTable c = some t') : t'.Inv := by
  rcases Option.map_eq_some_iff.mp hstep with ⟨s', hcall, rfl⟩
  rw [call_eq] at hcall
  cases henter : enter memoryPartitionTable t.flusher c with
  | none =>
    rw [henter] at hcall
    rcases Option.some_inj.mp hcall with rfl
    have hbytes : callBytes k memoryPartitionTable t.flusher c = [] := by rw [callBytes, henter]
    have hverifies : verifies k memoryPartitionTable t.flusher c = none := by rw [verifies, henter, Option.bind_none]
    rw [VerifiedTransfer.Inv, hverifies, hbytes, List.append_nil]
    exact h
  | some s =>
    simp only [henter] at hcall
    cases hend : Flusher.writeChunk k s c with
    | next s₁ last =>
      simp only [hend] at hcall
      have hsums := h.writeChunk henter (.inl ⟨last, hend⟩)
      cases last with
      | true =>
        have hverifies : verifies k memoryPartitionTable t.flusher c = some s₁ := by
          rw [verifies, henter, Option.bind_some, hend]
        have hfresh := (finish_spec hcall).choose_spec.2.2
        rw [VerifiedTransfer.Inv, hverifies, crc, hfresh]
        exact ⟨rfl, rfl⟩
      | false =>
        have hverifies : verifies k memoryPartitionTable t.flusher c = none := by
          rw [verifies, henter, Option.bind_some, hend]
        have hsame := (finish_spec hcall).choose_spec.2.2
        rw [VerifiedTransfer.Inv, hverifies, crc, hsame]
        exact hsums
    | returned s₁ =>
      simp only [hend] at hcall
      rcases Option.some_inj.mp hcall with rfl
      have hverifies : verifies k memoryPartitionTable t.flusher c = none := by
        rw [verifies, henter, Option.bind_some, hend]
      rw [VerifiedTransfer.Inv, hverifies]
      exact h.writeChunk henter (.inr hend)
    | panicked =>
      simp only [hend] at hcall
      cases hcall
    | exhausted =>
      simp only [hend] at hcall
      cases hcall

end

/-- No checksum is the same for strings that differ in four bytes in a row only; so at every
verification of a flusher, whatever its device does, such a difference is found out. -/
theorem burst_is_caught :
    (∀ (cs : UInt32) (a b : List UInt8), DifferInWindow a b → updateCrc32 cs a ≠ updateCrc32 cs b) ∧
      ∀ (k : Kind) (memoryPartitionTable : File → Option Nat) (d : FlashMemory) (fs : SingleBufferRamFileSystem)
        (calls : List Call),
        Allowed (VerifiedTransfer.step k memoryPartitionTable) (VerifiedTransfer.Caught k memoryPartitionTable)
          ⟨⟨d, {}, fs⟩, []⟩ calls := by
  refine ⟨fun cs a b h => updateCrc32_ne_of_window h cs, fun k memoryPartitionTable d fs calls => ?_⟩
  exact allowed_of_step (I := VerifiedTransfer.Inv) (fun t c t' hstep h => h.step hstep) (fun t c h => h.caught)
    ⟨rfl, rfl⟩ calls

/-- Two bytes of a second chunk are stored over the last two of the first; read back they do not match. -/
theorem burst_is_caught_behind_a_chunk :
    ∃ t s, VerifiedTransfer.step .salute saluteFlashMemoryPartitionTable ⟨smallFlusher, []⟩
          (showCall [1, 2, 3, 4, 5, 6] false (by decide)) = some t ∧
        verifies .salute saluteFlashMemoryPartitionTable t.flusher (showCall [7, 8] true (by decide)) = some s ∧
        s.verifiedBytes = [0xFF, 0xFF, 0xFF, 0xFF, 1, 2, 3, 4, 7, 8, 0xFF, 0xFF] ∧
        s.updateFlashMemoryCrc32.crc.isMatch = false := by
  have hrun : ((VerifiedTransfer.step .salute saluteFlashMemoryPartitionTable ⟨smallFlusher, []⟩
      (showCall [1, 2, 3, 4, 5, 6] false (by decide))).bind fun t =>
        (verifies .salute saluteFlashMemoryPartitionTable t.flusher (showCall [7, 8] true (by decide))).map fun s =>
          (t.written ++ callBytes .salute saluteFlashMemoryPartitionTable t.flusher (showCall [7, 8] true (by decide)),
            s.verifiedBytes)) =
      some ([0xFF, 0xFF, 0xFF, 0xFF, 1, 2, 3, 4, 5, 6, 0xFF, 0xFF],
        [0xFF, 0xFF, 0xFF, 0xFF, 1, 2, 3, 4, 7, 8, 0xFF, 0xFF]) := by decide +kernel
  rcases Option.bind_eq_some_iff.mp hrun with ⟨t, hstep, hverifies⟩
  rcases Option.map_eq_some_iff.mp hverifies with ⟨s, hs, hbytes⟩
  rcases Prod.mk.inj hbytes with ⟨hwritten, hread⟩
  have hdiffer : DifferInWindow [0xFF, 0xFF, 0xFF, 0xFF, 1, 2, 3, 4, 5, 6, 0xFF, 0xFF]
      [0xFF, 0xFF, 0xFF, 0xFF, 1, 2, 3, 4, 7, 8, 0xFF, 0xFF] := by
    refine ⟨rfl, by decide, 8, fun i hi => ?_⟩
    by_cases hlast : i < 12
    · have hin : i < 8 := by omega
      clear hi hlast
      revert i
      decide
    · rw [List.getElem?_eq_none (Nat.le_of_not_lt hlast), List.getElem?_eq_none (Nat.le_of_not_lt hlast)]
  have hcaught := (burst_is_caught.2 .salute saluteFlashMemoryPartitionTable smallFlusher.flashMemory smallFlusher.fs
    [showCall [1, 2, 3, 4, 5, 6] false (by decide), showCall [7, 8] true (by decide)]).2 t hstep
  exact ⟨t, s, hstep, hs, hread, hcaught.1 s hs (by rw [hwritten, hread]; exact hdiffer)⟩

end Esp32Cam.Bft.Flusher
