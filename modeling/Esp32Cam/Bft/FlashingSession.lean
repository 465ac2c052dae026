/-
  Esp32Cam.Bft.FlashingSession — the implementor behind the flushing file system.

  The implementor is a subscriber (`flashing`): its flash memory and the state of its transfer
  are what the session keeps for it. It reads the file and moves its cursor
  (`flashing_onlyMoves`), so that all that holds of appends holds of those it is
  notified by, and each flush is one call of it: `Flashing.appendAll` says which calls the
  appends come to, and what they leave in the buffer for the last one.
-/

import Esp32Cam.Bft.FlushingAppend
import Esp32Cam.Bft.FlashErasing

namespace Esp32Cam.Bft.Flusher

open Esp32Cam.Lib Esp32Cam.Ut Esp32Cam.Sys

/-! ## The cursor of the file -/

/-- How a part of a call leaves the file system, where it leaves one. -/
def Flow.Moves {α : Type} (fs : SingleBufferRamFileSystem) : Flow α → Prop
  | .next s _ => Moved fs s.fs
  | .returned s => Moved fs s.fs
  | .panicked => True
  | .exhausted => True

section
variable {s s' : Flusher} {file : File} {isLastChunk : Bool}

theorem readIntoPage_moved (s : Flusher) (pageBuffer : List UInt8) (file : File) (offset room header : Nat) :
    Moved s.fs (s.readIntoPage pageBuffer file offset room header).1.fs := by
  unfold readIntoPage
  split
  · exact file.read_moved s.fs room
  · exact .refl s.fs

theorem writePage_moves (k : Kind) (s : Flusher) (file : File) (isLastChunk : Bool) :
    (writePage k.implementor s file isLastChunk).Moves s.fs := by
  unfold writePage
  split
  · next s₁ h =>
    obtain rfl : s.tryReadCurrentFlashMemoryPageContent.1 = s₁ := congrArg Prod.fst h
    exact .refl s.fs
  · next s₁ pageBuffer h =>
    have hs₁ : s₁.fs = s.fs := by
      obtain rfl : s.tryReadCurrentFlashMemoryPageContent.1 = s₁ := congrArg Prod.fst h
      rfl
    have hformat : Moved s.fs (k.implementor.formatFlashMemoryPageContent s₁ pageBuffer file isLastChunk).1.fs := by
      rw [k.format_eq, ← hs₁]
      exact readIntoPage_moved s₁ pageBuffer file _ _ _
    generalize k.implementor.formatFlashMemoryPageContent s₁ pageBuffer file isLastChunk = page at hformat
    obtain ⟨s₂, buffer, nWritten, nProcessed⟩ := page
    dsimp only at hformat ⊢
    split
    · trivial
    · split
      · next s₃ h₃ =>
        obtain rfl : (tryWriteIntoCurrentFlashMemoryPage _ buffer).1 = s₃ := congrArg Prod.fst h₃
        exact hformat
      · next s₃ h₃ =>
        obtain rfl : (tryWriteIntoCurrentFlashMemoryPage _ buffer).1 = s₃ := congrArg Prod.fst h₃
        exact hformat

theorem writeFile_moves (k : Kind) (file : File) (bufferSize : Nat) (isLastChunk : Bool) (fuel : Nat) (s : Flusher) (total : Nat) :
    (writeFile k.implementor file bufferSize isLastChunk fuel s total).Moves s.fs := by
  induction fuel generalizing s total with
  | zero => trivial
  | succ fuel ih =>
    have hpre : s.preErase.fs = s.fs := preErase_fs s
    have hpage := writePage_moves k s.preErase file isLastChunk
    rw [hpre] at hpage
    unfold writeFile
    split
    · exact .refl s.fs
    · dsimp only
      split
      · show Moved s.fs s.preErase.fs
        rw [hpre]
        exact .refl s.fs
      · cases hwrite : writePage k.implementor s.preErase file isLastChunk with
        | next s₁ n =>
          rw [hwrite] at hpage
          have hrest := ih s₁ (total + n)
          dsimp only
          generalize writeFile k.implementor file bufferSize isLastChunk fuel s₁ (total + n) = flow at hrest
          cases flow with
          | next s₂ _ => exact hpage.trans hrest
          | returned s₂ => exact hpage.trans hrest
          | panicked => trivial
          | exhausted => trivial
        | returned s₁ =>
          rw [hwrite] at hpage
          exact hpage
        | panicked => trivial
        | exhausted => trivial

theorem postChunkFlushed_fs {k : Kind}
    (h : k.implementor.onFileBufferingFinishedPostChunkFlushed s file isLastChunk = some s') : s'.fs = s.fs := by
  cases k with
  | flashMemory => rw [Option.some_inj.mp h]
  | salute =>
    change saluteOnFileBufferingFinishedPostChunkFlushed s file isLastChunk = some s' at h
    unfold saluteOnFileBufferingFinishedPostChunkFlushed at h
    split at h
    · rw [Option.some_inj.mp h]
    · dsimp only at h
      split at h
      · cases h
      · split at h
        · cases h
        · rw [← Option.some_inj.mp h]

theorem finish_fs {k : Kind} (h : finish k.implementor s file isLastChunk = some s') : s'.fs = s.fs := by
  obtain ⟨s₂, hhook, rfl⟩ := Option.map_eq_some_iff.mp h
  have hfs := postChunkFlushed_fs hhook
  split at hfs
  · rw [(updateFlashMemoryCrc32_same s).fs] at hfs
    split <;> exact hfs
  · split <;> exact hfs

/-- A call reads the file, and moves its cursor. -/
theorem onFileBufferingFinished_moved {k : Kind} {memoryPartitionTable : File → Option Nat}
    (h : onFileBufferingFinished k.implementor memoryPartitionTable s file isLastChunk = some s') : Moved s.fs s'.fs := by
  unfold onFileBufferingFinished at h
  have hstart := start_fs memoryPartitionTable s file s.fs
  cases hs : start memoryPartitionTable s file with
  | none =>
    simp only [hs, Option.some_inj] at h
    rw [← h]
    exact .refl s.fs
  | some s₁ =>
    have hs₁ : s₁.fs = s.fs := by
      rw [hs, Option.map_some] at hstart
      have heq : s₁ = { s₁ with fs := s.fs } := Option.some_inj.mp hstart
      rw [heq]
    have hfs : s₁.preErase.setOngoing.fs = s.fs := (preErase_fs s₁).trans hs₁
    simp only [hs] at h
    rw [hfs] at h
    have hmoved := (file.getCurrentPosition_moved s.fs).trans (file.seek_moved (file.getCurrentPosition s.fs).1 0 .start)
    generalize file.getCurrentPosition s.fs = position at h hmoved
    obtain ⟨fs, bufferSize⟩ := position
    dsimp only at h hmoved
    have hloop := writeFile_moves k file bufferSize isLastChunk (bufferSize + 1)
      { s₁.preErase.setOngoing with fs := (file.seek fs 0 .start).1 } 0
    generalize writeFile k.implementor file bufferSize isLastChunk (bufferSize + 1) _ 0 = flow at h hloop
    cases flow with
    | next s₂ isLastChunk' =>
      rw [finish_fs h]
      exact hmoved.trans hloop
    | returned s₂ =>
      rw [← Option.some_inj.mp h]
      exact hmoved.trans hloop
    | panicked => cases h
    | exhausted => cases h

end

/-! ## The implementor as a subscriber -/

/-- The flash memory and the state of the transfer; `none` once the program has panicked. -/
abbrev Device := Option (FlashMemory × FlushingState)

def device (s : Flusher) : FlashMemory × FlushingState := (s.flashMemory, s.flushingState)

def flashing (k : Kind) (memoryPartitionTable : File → Option Nat) : Subscriber Device := fun subscriber ram file isLastChunk =>
  match subscriber with
  | none => (none, ram)
  | some (flashMemory, flushingState) =>
    match onFileBufferingFinished k.implementor memoryPartitionTable ⟨flashMemory, flushingState, ram⟩ file isLastChunk with
    | some s => (some s.device, s.fs)
    | none => (none, ram)

section
variable {k : Kind} {memoryPartitionTable : File → Option Nat}

theorem flashing_onlyMoves (k : Kind) (memoryPartitionTable : File → Option Nat) :
    (flashing k memoryPartitionTable).OnlyMoves := by
  intro subscriber ram file isLastChunk
  unfold flashing
  split
  · exact .refl ram
  · split
    · next h => exact onFileBufferingFinished_moved h
    · exact .refl ram

/-- A notification is a call of the implementor. -/
theorem flashing_call (s : Option Flusher) (c : Call) :
    (flashing k memoryPartitionTable (s.map device) c.fs c.file c.isLastChunk).1 =
      (s.bind fun s => call k memoryPartitionTable s c).map device := by
  cases s with
  | none => rfl
  | some s =>
    show (flashing k memoryPartitionTable (some (s.flashMemory, s.flushingState)) c.fs c.file c.isLastChunk).1 =
      (call k memoryPartitionTable s c).map device
    have hcall : call k memoryPartitionTable s c =
      onFileBufferingFinished k.implementor memoryPartitionTable ⟨s.flashMemory, s.flushingState, c.fs⟩ c.file c.isLastChunk := rfl
    rw [hcall]
    unfold flashing
    dsimp only
    split
    · next h => rw [h]; rfl
    · next h => rw [h]; rfl

theorem flush_concat (s : Flusher) (calls : List Call) (c : Call) : flush k memoryPartitionTable s (calls ++ [c]) =
    (flush k memoryPartitionTable s calls).bind fun s => call k memoryPartitionTable s c := by
  rw [flush, List.foldlM_append]
  change (flush k memoryPartitionTable s calls).bind _ = _
  congr 1
  funext s
  exact Option.bind_fun_some _

end

end Esp32Cam.Bft.Flusher

namespace Esp32Cam.Bft.Session

open Esp32Cam.Lib Flusher

/-! ## The calls of a session -/

section
variable {σ : Type} {subscriber : Subscriber σ} {s s' : Session σ} {f : File} {capacity : Nat} {P : Session σ → Prop}

/-- What a round keeps, with its flush and without, an append keeps. -/
theorem appendLoop_keeps (hround : ∀ s data, data ≠ [] → P s → P (s.setRam (f.append s.ram data).1) ∧
      P ((s.setRam (f.append s.ram data).1).flush subscriber f))
    {buffer : List UInt8} {fuel position n : Nat} (hrun : appendLoop subscriber f buffer fuel s position = .ok (s', n))
    (h : P s) : P s' := by
  induction fuel generalizing s position with
  | zero => cases hrun
  | succ fuel ih =>
    unfold appendLoop at hrun
    split at hrun
    · next hposition =>
      have hdata : buffer.drop position ≠ [] := fun hnil => by
        have := List.drop_eq_nil_iff.mp hnil
        omega
      obtain ⟨hstored, hflushed⟩ := hround s (buffer.drop position) hdata h
      generalize f.append s.ram (buffer.drop position) = r at hrun hstored hflushed
      obtain ⟨ram, nAppended⟩ := r
      dsimp only at hrun hstored hflushed
      refine ih hrun ?_
      split
      · exact hflushed
      · exact hstored
    · cases hrun
      exact h

theorem appendAll_keeps (hround : ∀ s data, data ≠ [] → P s → P (s.setRam (f.append s.ram data).1) ∧
      P ((s.setRam (f.append s.ram data).1).flush subscriber f)) (hopened : ∀ s, P s → Opened s f capacity)
    {chunks : List (List UInt8)} {ns : List Nat} (hrun : s.appendAll subscriber f.fileDescriptor chunks = .ok (s', ns))
    (h : P s) : P s' := by
  induction chunks generalizing s ns with
  | nil =>
    cases hrun
    exact h
  | cons buffer chunks ih =>
    have ho := hopened s h
    have happend : s.append subscriber f.fileDescriptor buffer =
        appendLoop subscriber f buffer (buffer.length + 2) s 0 := by
      simp only [append, FlushingBufferFileSystem.tryAssertFileOperationValid, ho.valid, ho.bufferFile, Bool.not_true,
        Bool.false_eq_true, if_false, if_true]
    rw [appendAll, happend] at hrun
    split at hrun
    · cases hrun
    · next s₁ n hloop =>
      obtain ⟨⟨s₂, ns'⟩, hrest, heq⟩ := ok_of_map_eq_ok hrun
      obtain ⟨rfl, -⟩ := Prod.mk.inj heq
      exact ih hrest (appendLoop_keeps hround hloop h)

/-- Behind an append the file holds what is written, and its cursor stands at the end. -/
theorem holds_append (h : Opened s f capacity) (hcapacity : capacity < 2 ^ 31) (data : List UInt8) :
    Holds (f.append s.ram data).1 f (f.append s.ram data).1.written (f.append s.ram data).1.written.length := by
  obtain ⟨ram, happend, hopened, hcursor, -⟩ := append_spec h data
  have hram : (f.append s.ram data).1 = ram := congrArg Prod.fst happend
  have hnext : ram.memoryPoolNextWritePosition = ram.memoryPoolCurrentPosition := by
    rw [← hram]
    simp only [File.append, h.fileSystem, if_true]
    rfl
  have hsize : ram.pool.length = capacity := hopened.size
  have hinside : ram.memoryPoolCurrentPosition ≤ capacity := hopened.inside
  have hlength : ram.written.length = ram.memoryPoolCurrentPosition := by
    rw [SingleBufferRamFileSystem.written, List.length_take, hsize, Nat.min_eq_left hinside]
  rw [hram]
  refine ⟨h.fileSystem, hopened.descriptor, hnext.trans hlength.symm, hlength.symm, Nat.le_refl _, ?_, ?_⟩
  · rw [hlength]
    rfl
  · show ram.pool.length < 2 ^ 31
    rw [hsize]
    exact hcapacity

end

/-- What the implementor has been called with, from the flusher `s₀` on: each flush is one call. -/
structure Flashing (k : Kind) (memoryPartitionTable : File → Option Nat) (s₀ : Flusher) (f : File) (capacity : Nat)
    (old : List Flush) (s : Session Device) : Prop where
  opened : Opened s f capacity
  handedOver : HandedOver s.ram f s.ram.written
  calls : ∃ calls : List Call, (∀ c ∈ calls, c.file = f ∧ c.isLastChunk = false ∧ 0 < c.chunk.length) ∧
    s.flushes.map Flush.chunk = old.map Flush.chunk ++ calls.map (·.chunk) ∧
    s.subscribers = (Flusher.flush k memoryPartitionTable s₀ calls).map device

section
variable {k : Kind} {memoryPartitionTable : File → Option Nat} {s₀ : Flusher} {f : File} {capacity : Nat} {old : List Flush}
variable {s : Session Device}

theorem Flashing.append (h : Flashing k memoryPartitionTable s₀ f capacity old s) (hcapacity : capacity < 2 ^ 31)
    (data : List UInt8) : Flashing k memoryPartitionTable s₀ f capacity old (s.setRam (f.append s.ram data).1) := by
  obtain ⟨ram, happend, hopened, -, -⟩ := append_spec h.opened data
  have hram : (f.append s.ram data).1 = ram := congrArg Prod.fst happend
  have hholds := holds_append h.opened hcapacity data
  rw [hram] at hholds ⊢
  exact ⟨hopened, Or.inl hholds, h.calls⟩

theorem Flashing.flush (h : Flashing k memoryPartitionTable s₀ f capacity old s)
    (hholds : Holds s.ram f s.ram.written s.ram.written.length) (hpos : 0 < s.ram.written.length) :
    Flashing k memoryPartitionTable s₀ f capacity old (s.flush (flashing k memoryPartitionTable) f) := by
  have hmoves := flashing_onlyMoves k memoryPartitionTable
  have hram := flush_ram h.opened.fileSystem h.opened.descriptor hmoves
  refine ⟨(flush_spec h.opened hmoves).1, ?_, ?_⟩
  · rw [hram]
    exact Or.inr ⟨rfl, s.ram.written, hholds.at_cursor (Nat.zero_le _)⟩
  · obtain ⟨calls, hall, hchunks, hdevice⟩ := h.calls
    let c : Call := ⟨f, s.ram, s.ram.written, false, Or.inl hholds⟩
    refine ⟨calls ++ [c], ?_, ?_, ?_⟩
    · rw [List.forall_mem_append]
      exact ⟨hall, List.forall_mem_singleton.mpr ⟨rfl, rfl, hpos⟩⟩
    · show (s.flushes ++ [Flush.mk s.ram false]).map Flush.chunk = _
      rw [List.map_append, hchunks, List.append_assoc, List.map_append]
      rfl
    · show (flashing k memoryPartitionTable s.subscribers c.fs c.file c.isLastChunk).1 = _
      rw [hdevice, flashing_call, flush_concat]

/-- A round of an append. -/
theorem Flashing.round (h : Flashing k memoryPartitionTable s₀ f capacity old s) (hcapacity : capacity < 2 ^ 31)
    {data : List UInt8} (hdata : data ≠ []) :
    Flashing k memoryPartitionTable s₀ f capacity old (s.setRam (f.append s.ram data).1) ∧
      Flashing k memoryPartitionTable s₀ f capacity old
        ((s.setRam (f.append s.ram data).1).flush (flashing k memoryPartitionTable) f) := by
  have hstored := h.append hcapacity data
  refine ⟨hstored, hstored.flush (holds_append h.opened hcapacity data) ?_⟩
  obtain ⟨ram, happend, hopened, hcursor, -⟩ := append_spec h.opened data
  have hram : (f.append s.ram data).1 = ram := congrArg Prod.fst happend
  have hsize : ram.pool.length = capacity := hopened.size
  have hinside : ram.memoryPoolCurrentPosition ≤ capacity := hopened.inside
  have hlength : 0 < data.length := List.length_pos_iff.mpr hdata
  have hpositive := h.opened.positive
  rw [hram]
  show 0 < ram.written.length
  rw [SingleBufferRamFileSystem.written, List.length_take, hsize]
  omega

/-- What the appends come to: the calls of the implementor, and what is left in the buffer. -/
theorem Flashing.appendAll (h : Flashing k memoryPartitionTable s₀ f capacity s.flushes s) (hcapacity : capacity < 2 ^ 31)
    (chunks : List (List UInt8)) :
    ∃ s' calls, s.appendAll (flashing k memoryPartitionTable) f.fileDescriptor chunks = .ok (s', chunks.map List.length) ∧
      (∀ c ∈ calls, c.file = f ∧ c.isLastChunk = false ∧ 0 < c.chunk.length) ∧
      calls.map (·.chunk.length) = allFlushLengths capacity s.ram.memoryPoolCurrentPosition (chunks.map List.length) ∧
      (calls.map (·.chunk)).flatten ++ s'.ram.written = s.ram.written ++ chunks.flatten ∧
      HandedOver s'.ram f s'.ram.written ∧ s'.subscribers = (Flusher.flush k memoryPartitionTable s₀ calls).map device := by
  obtain ⟨s', hrun, new, hflushes, -, hlengths, hdata⟩ :=
    appendAll_ok h.opened (flashing_onlyMoves k memoryPartitionTable) chunks
  have h' : Flashing k memoryPartitionTable s₀ f capacity s.flushes s' :=
    appendAll_keeps (P := Flashing k memoryPartitionTable s₀ f capacity s.flushes)
      (fun s data hdata h => h.round hcapacity hdata) (fun s h => h.opened) hrun h
  obtain ⟨calls, hall, hchunks, hdevice⟩ := h'.calls
  have hnew : new.map Flush.chunk = calls.map (·.chunk) := by
    rw [hflushes, List.map_append] at hchunks
    exact List.append_cancel_left hchunks
  refine ⟨s', calls, hrun, hall, ?_, ?_, h'.handedOver, hdevice⟩
  · rw [← hlengths]
    have hmaps := congrArg (List.map List.length) hnew
    rw [List.map_map, List.map_map] at hmaps
    exact hmaps.symm
  · rw [← hnew]
    exact hdata

end

end Esp32Cam.Bft.Session
