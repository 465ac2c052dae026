/-
  Esp32Cam.Bft.FlashHeader — the length in front of the file.

  The length is not counted: after the last chunk it is the write address less the four
  bytes kept in front of the file. The write address is an absolute one, so the length
  is too long by the base of the file, and it moves over the four bytes only when a
  first page is written, so that of an empty file at address zero wraps around
  (`the_length_of_an_empty_file_wraps`). Both constants of the byte order are false, so
  the bytes are those of the memory: a target that reads them in the other order reads
  another number.

  `header_decodes_iff` says for which bases and lengths the header reads as the length.
-/

import Esp32Cam.Bft.FlashErasing

namespace Esp32Cam.Bft.Flusher

open Esp32Cam.Lib Esp32Cam.Ut Esp32Cam.Sys

/-- Where the write loop of the last call ends: the length is computed there. -/
def loopEnd (k : Kind) (memoryPartitionTable : File → Option Nat) (s : Flusher) (chunks : List Call) (last : Call) :
    Option Flusher :=
  (flush k memoryPartitionTable s chunks).bind fun s =>
    (enter memoryPartitionTable s last).bind fun s =>
      match writeChunk k s last with
      | .next s _ => some s
      | _ => none

def header (s : Flusher) (base : Nat) : List UInt8 :=
  readMem s.flashMemory.bytes (s.geometry.pageStart base) kFileHeaderOffset

section
variable {k : Kind} {memoryPartitionTable : File → Option Nat} {s s₁ : Flusher} {chunks : List Call} {last : Call} {base : Nat}

theorem flush_last (hrun : flush k memoryPartitionTable s chunks = some s₁) (last : Call) :
    flush k memoryPartitionTable s (chunks ++ [last]) = call k memoryPartitionTable s₁ last := by
  rw [flush, List.foldlM_append]
  change (flush k memoryPartitionTable s chunks).bind _ = _
  rw [hrun]
  show (call k memoryPartitionTable s₁ last).bind some = _
  exact Option.bind_fun_some _

/-- The transfer goes through, and its last loop ends behind the whole file. -/
theorem Transfer.reaches (h : Transfer memoryPartitionTable base s chunks last) (hd : s.flashMemory.FaultFree)
    (hheader : k.nHeader < s.geometry.writeBlockSize) (hin : base < s.geometry.size)
    (hfits : base + (k.nHeader + flushed (chunks ++ [last])) ≤ s.geometry.size) :
    ∃ s₁ ops, loopEnd k memoryPartitionTable s chunks last = some s₁ ∧
      flush k memoryPartitionTable s (chunks ++ [last]) = finish k.implementor s₁ last.file true ∧
      Reached k s.flashMemory base (flushed (chunks ++ [last])) s₁ ops ∧ s₁.flushingState.ongoing = true := by
  have hsum : flushed (chunks ++ [last]) = flushed chunks + last.chunk.length := by simp [flushed]
  rw [hsum] at hfits ⊢
  have hchunks : ∃ s₁, flush k memoryPartitionTable s chunks = some s₁ ∧
      ∃ ops, Reached k s.flashMemory base (0 + flushed chunks) s₁ ops := by
    refine flush_chunks (P := fun q s₁ => ∃ ops, Reached k s.flashMemory base q s₁ ops) (Q := flushed chunks) h.more
      ?_ (by omega) ⟨[], reached_of_idle h.idle hin⟩
    intro c hc q s₁ hq hreached
    obtain ⟨ops, hreached⟩ := hreached
    have hfits' : base + (k.nHeader + q + c.chunk.length) ≤ s.geometry.size := by omega
    obtain ⟨s₂, s₃, henter, hnext, hreached', -⟩ := hreached.call hd hheader hfits'
      (h.partition c (List.mem_append_left _ hc))
    exact ⟨s₃, call_of_writeChunk henter hnext, _, hreached'⟩
  obtain ⟨s₁, hrun, ops₁, h₁⟩ := hchunks
  rw [Nat.zero_add] at h₁
  have hfits' : base + (k.nHeader + flushed chunks + last.chunk.length) ≤ s.geometry.size := by omega
  obtain ⟨s₂, s₃, henter, hnext, h₃, hongoing, -⟩ := h₁.call hd hheader hfits'
    (h.partition last (List.mem_append_right _ (List.mem_singleton.mpr rfl)))
  refine ⟨s₃, _, ?_, ?_, h₃, hongoing⟩
  · rw [loopEnd, hrun, Option.bind_some, henter, Option.bind_some, hnext]
  · rw [flush_last hrun, call_of_writeChunk henter hnext, h.last]

end

/-- **Header length.** After a transfer whose calls do not fail, the subtraction has not wrapped and the
    header reads as the number of bytes flushed, in the byte order of the target, exactly when the write
    address lies four bytes behind the word that is read as that number. -/
theorem header_decodes_iff (memoryPartitionTable : File → Option Nat) (s : Flusher) (base : Nat) (chunks : List Call)
    (last : Call) (littleEndian : Bool) (htransfer : Transfer memoryPartitionTable base s chunks last)
    (hfaults : s.flashMemory.FaultFree) (hheader : kFileHeaderOffset < s.geometry.writeBlockSize)
    (hfits : base + (kFileHeaderOffset + flushed (chunks ++ [last])) ≤ s.geometry.size) :
    let total := flushed (chunks ++ [last])
    ∃ s₁ s', loopEnd .salute memoryPartitionTable s chunks last = some s₁ ∧
      flush .salute memoryPartitionTable s (chunks ++ [last]) = some s' ∧
      (kFileHeaderOffset ≤ s₁.flushingState.flashMemoryAddress ∧ ofBytes littleEndian (s'.header base) = total ↔
        base + Kind.salute.written total = ofBytes littleEndian (le32 total) + kFileHeaderOffset ∧
          base + Kind.salute.written total < 2 ^ 32) := by
  intro total
  have hword := s.geometry.addressable
  change s.geometry.size ≤ 4294967296 at hword
  have hin : base < s.geometry.size := by
    unfold kFileHeaderOffset at hfits
    omega
  obtain ⟨s₁, ops, hend, hflush, hreached, hongoing⟩ := htransfer.reaches (k := .salute) hfaults hheader hin hfits
  have hbase := hreached.baseAddress
  have haddress := hreached.address
  rw [begun_of_ongoing hongoing] at hbase haddress
  have hg : s₁.geometry = s.geometry := hreached.issued.geometry
  obtain ⟨s', hfinish, hbytes⟩ := finish_header s₁ last.file (fun n => by rw [hreached.issued.faults]; exact hfaults n)
    (by rw [hbase, hg]; exact hin) (by rw [hg]; exact hheader.le)
  obtain ⟨closing, hissued, -⟩ := finish_spec (k := .salute) hfinish
  have hg' : s'.geometry = s.geometry := hissued.geometry.trans hg
  have hread : s'.header base = lengthHeader (u32Sub s₁.flushingState.flashMemoryAddress kFileHeaderOffset) := by
    rw [header, hbytes, hg', hbase, hg]
    exact readMem_overlay_self _ _ _
  refine ⟨s₁, s', hend, hflush.trans hfinish, ?_⟩
  rw [hread, haddress]
  have hle := Kind.salute.written_le total
  change base + (kFileHeaderOffset + total) ≤ s.geometry.size at hfits
  change Kind.salute.written total ≤ kFileHeaderOffset + total at hle
  change _ ≤ u32 (base + Kind.salute.written total) ∧
    ofBytes littleEndian (le32 (u32Sub (u32 (base + Kind.salute.written total)) kFileHeaderOffset)) = total ↔ _
  generalize Kind.salute.written total = moved at *
  have hword' : u32Sub (u32 (base + moved)) kFileHeaderOffset < 2 ^ 32 := by
    unfold u32Sub uint32
    omega
  unfold kFileHeaderOffset at *
  rw [ofBytes_le32_eq_iff littleEndian hword' (by omega)]
  generalize ofBytes littleEndian (le32 total) = w
  unfold u32Sub uint32 u32
  omega

/-- Five bytes in two chunks, in the partition at address zero, for a target of the memory's order. -/
theorem header_decodes_of_four_and_one : ∃ s₁ s',
    loopEnd .salute saluteFlashMemoryPartitionTable smallFlusher [showCall [1, 2, 3, 4] false (by decide)]
      (showCall [5] true (by decide)) = some s₁ ∧
    flush .salute saluteFlashMemoryPartitionTable smallFlusher
      [showCall [1, 2, 3, 4] false (by decide), showCall [5] true (by decide)] = some s' ∧
    kFileHeaderOffset ≤ s₁.flushingState.flashMemoryAddress ∧ ofBytes true (s'.header 0) = 5 := by
  obtain ⟨s₁, s', hend, hrun, hiff⟩ := header_decodes_iff saluteFlashMemoryPartitionTable smallFlusher 0
    [showCall [1, 2, 3, 4] false (by decide)] (showCall [5] true (by decide)) true
    ⟨rfl, by decide +kernel, by decide, rfl⟩ (fun _ => rfl) (by decide) (by decide)
  exact ⟨s₁, s', hend, hrun, hiff.mpr (by decide +kernel)⟩

/-- No page of an empty file is written: the length is zero less four, in both byte orders. -/
theorem the_length_of_an_empty_file_wraps : ∃ s₁ s',
    loopEnd .salute saluteFlashMemoryPartitionTable smallFlusher [] (showCall [] true (by decide)) = some s₁ ∧
    flush .salute saluteFlashMemoryPartitionTable smallFlusher [showCall [] true (by decide)] = some s' ∧
    s₁.flushingState.flashMemoryAddress < kFileHeaderOffset ∧ s'.header 0 = [0xFC, 0xFF, 0xFF, 0xFF] ∧
    ∀ littleEndian, ofBytes littleEndian (s'.header 0) ≠ 0 := by
  have hend : (loopEnd .salute saluteFlashMemoryPartitionTable smallFlusher [] (showCall [] true (by decide))).map
      (·.flushingState.flashMemoryAddress) = some 0 := by decide +kernel
  have hrun : (flush .salute saluteFlashMemoryPartitionTable smallFlusher [showCall [] true (by decide)]).map
      (·.header 0) = some [0xFC, 0xFF, 0xFF, 0xFF] := by decide +kernel
  obtain ⟨s₁, hend, haddress⟩ := Option.map_eq_some_iff.mp hend
  obtain ⟨s', hrun, hheader⟩ := Option.map_eq_some_iff.mp hrun
  refine ⟨s₁, s', hend, hrun, ?_, hheader, ?_⟩
  · rw [haddress]
    decide
  · rw [hheader]
    decide

end Esp32Cam.Bft.Flusher
