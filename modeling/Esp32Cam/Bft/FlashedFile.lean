/-
  Esp32Cam.Bft.FlashedFile — a file on its way through the buffer into the flash.

  What the appends do not find room for is flushed to the implementor on the spot, and what
  is left in the buffer with the end of the file. `Stored` says that the flash then holds
  the file behind its length.

  Where the buffer is flushed is decided by the lengths of the appends alone
  (`allFlushLengths`). A chunk that does not begin on a page is stored over the one before,
  so the file is stored, whatever its bytes are, exactly when it has any, its partition is at
  address zero, and each flush inside of it ends on a page, counted from the header
  (`appended_file_is_stored_iff`).
-/

import Esp32Cam.Bft.FlashingSession

namespace Esp32Cam.Bft.Flusher

open Esp32Cam.Lib Esp32Cam.Ut Esp32Cam.Sys

/-! ## The calls -/

section
variable {memoryPartitionTable : File → Option Nat} {file : File} {g : FlashMemoryGeometry} {base q : Nat} {s : Flusher}
variable {c : Call} {calls : List Call}

theorem Ready.with_fs (h : Ready memoryPartitionTable file base q s) (fs : SingleBufferRamFileSystem) :
    Ready memoryPartitionTable file base q { s with fs } := by
  refine ⟨h.faultFree, ?_⟩
  have hstarted := h.started
  by_cases hq : q = 0
  · rw [if_pos hq] at hstarted ⊢
    exact hstarted
  · rw [if_neg hq] at hstarted ⊢
    exact ⟨hstarted.faultFree, hstarted.baseAddress, hstarted.address, hstarted.ongoing⟩

theorem Tracks.ready (h : Tracks base q s) (hq : 0 < q) : Ready memoryPartitionTable file base q s :=
  ⟨h.faultFree, by rw [if_neg (by omega)]; exact h⟩

/-- A call with bytes, up to what follows the loop. -/
theorem Ready.flushed (h : Ready memoryPartitionTable file base q s) (hg : s.geometry = g) (hfile : c.file = file)
    (hne : 0 < c.chunk.length) (hfits : base + 4 + q + c.chunk.length ≤ g.size) (hbase : g.eraseBlockSize ∣ base)
    (hpage : 4 < g.writeBlockSize) {B : (Nat → UInt8) → Nat → Nat → Prop} (hkeeps : Keeps g base q c.chunk B)
    (hB : B s.flashMemory.bytes s.flushingState.lastErasedBlockOffset q) :
    ∃ s', call .salute memoryPartitionTable s c = finish saluteFlashMemoryTransferImplementor s' file c.isLastChunk ∧
      Tracks base (q + c.chunk.length) s' ∧ s'.geometry = g ∧
      B s'.flashMemory.bytes s'.flushingState.lastErasedBlockOffset (q + c.chunk.length) := by
  have hholds : Holds c.fs c.file c.chunk c.chunk.length := by
    rcases c.handedOver with hholds | ⟨hnil, -⟩
    · exact hholds
    · rw [hnil] at hne
      cases hne
  subst hfile
  obtain ⟨s', hrun, htracks, hg', -, hB'⟩ := onFileBufferingFinished_run c.isLastChunk (h.with_fs c.fs) hg hholds hfits
    hne hbase hpage hkeeps hB
  exact ⟨s', hrun, htracks, hg', hB'⟩

/-- A call without bytes erases a block where the write address stands in a new one. -/
theorem Ready.flushed_empty (h : Ready memoryPartitionTable file base q s) (hg : s.geometry = g) (hfile : c.file = file)
    (hempty : c.chunk = []) (haddress : base + written q < 4294967296) :
    ∃ s', call .salute memoryPartitionTable s c = finish saluteFlashMemoryTransferImplementor s' file c.isLastChunk ∧
      Tracks base q s' ∧ s'.geometry = g ∧
      ErasedFrom g s.flashMemory.bytes s'.flashMemory.bytes s.flushingState.lastErasedBlockOffset
        (g.convertAddressIntoEraseBlockOffset (base + written q)) (decide (q = 0)) ∧
      s'.flushingState.lastErasedBlockOffset = g.convertAddressIntoEraseBlockOffset (base + written q) := by
  subst hfile
  obtain ⟨s₀, hstart, hfs, hg₀, htracks, hlast, herased⟩ := (h.with_fs c.fs).begin haddress
  have hfs' : s₀.preErase.setOngoing.fs = c.fs := hfs
  have hposition := c.handedOver.getCurrentPosition
  rw [hempty, List.length_nil] at hposition
  change _ = g at hg
  refine ⟨{ s₀.preErase.setOngoing with fs := (c.file.seek c.fs 0 .start).1 }, ?_,
    ⟨htracks.faultFree, htracks.baseAddress, htracks.address, htracks.ongoing⟩, hg₀.trans hg, ?_, ?_⟩
  · simp only [Flusher.call, Kind.implementor, onFileBufferingFinished, hstart, hfs', hposition, writeFile, if_true]
  · rw [← hg]
    exact herased
  · rw [← hg]
    exact hlast

/-- What is carried from chunk to chunk holds behind every call that is not the last. -/
theorem Ready.flushed_all {B : List UInt8 → (Nat → UInt8) → Nat → Nat → Prop}
    (h : Ready memoryPartitionTable file base 0 s) (hg : s.geometry = g)
    (hcalls : ∀ c ∈ calls, c.file = file ∧ c.isLastChunk = false ∧ 0 < c.chunk.length)
    (hfits : base + 4 + (calls.map (·.chunk)).flatten.length ≤ g.size) (hbase : g.eraseBlockSize ∣ base)
    (hpage : 4 < g.writeBlockSize) (hcarries : Carries g base (calls.map (·.chunk)) B)
    (hB : B [] s.flashMemory.bytes s.flushingState.lastErasedBlockOffset 0) :
    ∃ s', flush .salute memoryPartitionTable s calls = some s' ∧
      Ready memoryPartitionTable file base (calls.map (·.chunk)).flatten.length s' ∧ s'.geometry = g ∧
      B (calls.map (·.chunk)).flatten s'.flashMemory.bytes s'.flushingState.lastErasedBlockOffset
        (calls.map (·.chunk)).flatten.length := by
  suffices hrun : ∀ (post pre : List Call) (s : Flusher), pre ++ post = calls →
      Ready memoryPartitionTable file base (pre.map (·.chunk)).flatten.length s → s.geometry = g →
      B (pre.map (·.chunk)).flatten s.flashMemory.bytes s.flushingState.lastErasedBlockOffset
        (pre.map (·.chunk)).flatten.length →
      ∃ s', Flusher.flush .salute memoryPartitionTable s post = some s' ∧
        Ready memoryPartitionTable file base (calls.map (·.chunk)).flatten.length s' ∧ s'.geometry = g ∧
        B (calls.map (·.chunk)).flatten s'.flashMemory.bytes s'.flushingState.lastErasedBlockOffset
          (calls.map (·.chunk)).flatten.length from hrun calls [] s rfl h hg hB
  intro post
  induction post with
  | nil =>
    intro pre s hsplit h hg hB
    rw [List.append_nil] at hsplit
    subst hsplit
    exact ⟨s, rfl, h, hg, hB⟩
  | cons c post ih =>
    intro pre s hsplit h hg hB
    obtain ⟨hfile, hmore, hne⟩ := hcalls c (by rw [← hsplit]; simp)
    have hchunks : pre.map (·.chunk) ++ c.chunk :: post.map (·.chunk) = calls.map (·.chunk) := by
      rw [← hsplit]
      simp
    have hnext : ((pre ++ [c]).map (·.chunk)).flatten = (pre.map (·.chunk)).flatten ++ c.chunk := by simp
    have hfits' : base + 4 + (pre.map (·.chunk)).flatten.length + c.chunk.length ≤ g.size := by
      have hlengths := congrArg (fun chunks => chunks.flatten.length) hchunks
      simp only [List.flatten_append, List.flatten_cons, List.length_append] at hlengths
      omega
    obtain ⟨s₁, hcall, htracks, hg₁, hB₁⟩ := h.flushed hg hfile hne hfits' hbase hpage (hcarries.keeps _ _ _ hchunks)
      (hcarries.next _ _ _ _ _ hchunks hB)
    obtain ⟨s₂, hrest, hall⟩ := ih (pre ++ [c]) s₁ (by simpa using hsplit)
      (by rw [hnext, List.length_append]; exact htracks.ready (by omega)) hg₁
      (by rw [hnext, List.length_append]; exact hB₁)
    refine ⟨s₂, ?_, hall⟩
    rw [Flusher.flush, List.foldlM_cons, hcall, hmore]
    exact hrest

end

/-! ## The whole transfer -/

section
variable {memoryPartitionTable : File → Option Nat} {file : File} {g : FlashMemoryGeometry} {base n : Nat} {s : Flusher}
variable {calls : List Call} {last : Call} {B : List UInt8 → (Nat → UInt8) → Nat → Nat → Prop}

def headerLength (base n : Nat) : Nat := u32Sub (u32 (base + written n)) kFileHeaderOffset

theorem headerLength_of_pos (hn : 0 < n) (hfits : base + 4 + n ≤ 4294967296) : headerLength base n = base + n := by
  rw [headerLength, written_of_pos hn]
  exact u32Sub_u32 (by unfold kFileHeaderOffset; omega) (by omega)

variable (file) in
theorem Tracks.finished (h : Tracks base n s) (hg : s.geometry = g) (hin : base < g.size) (hbase : g.writeBlockSize ∣ base)
    (hpage : 4 < g.writeBlockSize) :
    ∃ s', finish saluteFlashMemoryTransferImplementor s file true = some s' ∧
      s'.flashMemory.bytes = overlay s.flashMemory.bytes base (lengthHeader (headerLength base n)) := by
  subst hg
  obtain ⟨s', hfinish, hbytes⟩ := finish_header s file h.faultFree (by rw [h.baseAddress]; exact hin) hpage.le
  rw [h.baseAddress, s.geometry.pageStart_of_dvd hbase, h.address] at hbytes
  exact ⟨s', hfinish, hbytes⟩

/-- The chunks that have bytes: the last one may have none. -/
def chunksOf (calls : List Call) (last : Call) : List (List UInt8) :=
  calls.map (·.chunk) ++ if last.chunk = [] then [] else [last.chunk]

theorem flatten_chunksOf (calls : List Call) (last : Call) :
    (chunksOf calls last).flatten = (calls.map (·.chunk)).flatten ++ last.chunk := by
  unfold chunksOf
  split
  · next h => rw [h, List.append_nil, List.append_nil]
  · rw [List.flatten_append, List.flatten_singleton]

/-- What is carried holds behind the whole file, before the header is stored. -/
theorem Ready.transfer {content : List UInt8} (h : Ready memoryPartitionTable file base 0 s) (hg : s.geometry = g)
    (hcalls : ∀ c ∈ calls, c.file = file ∧ c.isLastChunk = false ∧ 0 < c.chunk.length) (hfile : last.file = file)
    (hlast : last.isLastChunk = true) (hcontent : (chunksOf calls last).flatten = content)
    (hfits : base + 4 + content.length ≤ g.size) (hword : base + 4 + content.length < 4294967296)
    (hbase : g.eraseBlockSize ∣ base) (hpage : 4 < g.writeBlockSize) (hcarries : Carries g base (chunksOf calls last) B)
    (herase : ∀ m m' block, B content m block content.length → ErasedFrom g m m' block
        (g.convertAddressIntoEraseBlockOffset (base + written content.length)) (decide (content.length = 0)) →
      B content m' (g.convertAddressIntoEraseBlockOffset (base + written content.length)) content.length)
    (hB : B [] s.flashMemory.bytes s.flushingState.lastErasedBlockOffset 0) :
    ∃ s' m block, flush .salute memoryPartitionTable s (calls ++ [last]) = some s' ∧ B content m block content.length ∧
      s'.flashMemory.bytes = overlay m base (lengthHeader (headerLength base content.length)) := by
  have hle := written_le content.length
  have hpages := g.dvd_of_erase_dvd hbase
  have hlengths := congrArg List.length ((flatten_chunksOf calls last).symm.trans hcontent)
  rw [List.length_append] at hlengths
  obtain ⟨s₁, hrun, h₁, hg₁, hB₁⟩ := h.flushed_all hg hcalls (by omega) hbase hpage hcarries.of_append hB
  by_cases hempty : last.chunk = []
  · have hall : (calls.map (·.chunk)).flatten = content := by
      rw [← hcontent, flatten_chunksOf, hempty, List.append_nil]
    rw [hall] at h₁ hB₁
    obtain ⟨s₂, hcall, htracks, hg₂, herased, hblock⟩ := h₁.flushed_empty hg₁ hfile hempty (by omega)
    obtain ⟨s₃, hfinish, hbytes⟩ := htracks.finished file hg₂ (by omega) hpages hpage
    refine ⟨s₃, s₂.flashMemory.bytes, _, ?_, herase _ _ _ hB₁ herased, hbytes⟩
    rw [flush_concat, hrun, Option.bind_some, hcall, hlast, hfinish]
  · have hne : 0 < last.chunk.length := List.length_pos_iff.mpr hempty
    have hchunks : chunksOf calls last = calls.map (·.chunk) ++ [last.chunk] := by rw [chunksOf, if_neg hempty]
    rw [hchunks] at hcarries
    have hall : (calls.map (·.chunk)).flatten ++ last.chunk = content := (flatten_chunksOf calls last).symm.trans hcontent
    obtain ⟨s₂, hcall, htracks, hg₂, hB₂⟩ := h₁.flushed hg₁ hfile hne (by omega) hbase hpage
      (hcarries.keeps _ _ [] rfl) (hcarries.next _ _ [] _ _ rfl hB₁)
    rw [← List.length_append, hall] at htracks hB₂
    obtain ⟨s₃, hfinish, hbytes⟩ := htracks.finished file hg₂ (by omega) hpages hpage
    refine ⟨s₃, s₂.flashMemory.bytes, _, ?_, hB₂, hbytes⟩
    rw [flush_concat, hrun, Option.bind_some, hcall, hlast, hfinish]

def Stored (flash : FlashMemory) (base : Nat) (content : List UInt8) : Prop :=
  readMem flash.bytes (base + kFileHeaderOffset) content.length = content ∧
    readMem flash.bytes base kFileHeaderOffset = lengthHeader content.length

/-- Chunks that begin on pages are stored. -/
theorem Ready.stored {content : List UInt8} (h : Ready memoryPartitionTable file 0 0 s) (hg : s.geometry = g)
    (hcalls : ∀ c ∈ calls, c.file = file ∧ c.isLastChunk = false ∧ 0 < c.chunk.length) (hfile : last.file = file)
    (hlast : last.isLastChunk = true) (hcontent : (chunksOf calls last).flatten = content)
    (hfits : 0 + 4 + content.length ≤ g.size) (hword : 0 + 4 + content.length < 4294967296) (hpage : 4 < g.writeBlockSize)
    (hpos : 0 < content.length) (haligned : Aligned g 0 (chunksOf calls last)) :
    ∃ s', flush .salute memoryPartitionTable s (calls ++ [last]) = some s' ∧ Stored s'.flashMemory 0 content := by
  obtain ⟨s', m, block, hrun, ⟨hplace, -⟩, hbytes⟩ := h.transfer hg hcalls hfile hlast hcontent hfits hword
    (Nat.dvd_zero _) hpage (haligned.carries hpage)
    (fun m m' block hB herased => ⟨hB.1.erase (by simp) herased, Or.inl rfl⟩) ⟨inPlace_nil _ _, Or.inl rfl⟩
  rw [headerLength_of_pos hpos (by omega), Nat.zero_add] at hbytes
  refine ⟨s', hrun, ?_, ?_⟩
  · have himage := hplace.image
    rw [List.take_length] at himage
    conv => rhs; rw [← himage]
    rw [hbytes]
    exact readMem_congr fun i hi _ => overlay_behind (by rw [length_lengthHeader]; exact hi)
  · rw [hbytes]
    exact readMem_overlay_self m 0 (lengthHeader _)

/-- The length in the header is that of the file only at address zero, and not for an empty one. -/
theorem Ready.base_of_stored {content : List UInt8} (h : Ready memoryPartitionTable file base 0 s) (hg : s.geometry = g)
    (hcalls : ∀ c ∈ calls, c.file = file ∧ c.isLastChunk = false ∧ 0 < c.chunk.length) (hfile : last.file = file)
    (hlast : last.isLastChunk = true) (hcontent : (chunksOf calls last).flatten = content)
    (hfits : base + 4 + content.length ≤ g.size) (hword : base + 4 + content.length < 4294967296)
    (hbase : g.eraseBlockSize ∣ base) (hpage : 4 < g.writeBlockSize) {s' : Flusher}
    (hrun : flush .salute memoryPartitionTable s (calls ++ [last]) = some s')
    (hstored : Stored s'.flashMemory base content) :
    base = 0 ∧ 0 < content.length := by
  obtain ⟨s'', m, block, hrun', -, hbytes⟩ := h.transfer (B := fun _ _ _ _ => True) hg hcalls hfile hlast hcontent hfits
    hword hbase hpage ⟨fun _ _ _ _ => ⟨fun _ _ _ _ _ _ _ _ _ => trivial, fun _ _ _ _ => trivial⟩, fun _ _ _ _ _ _ _ => trivial⟩
    (fun _ _ _ _ _ => trivial) trivial
  obtain rfl : s' = s'' := Option.some_inj.mp (hrun.symm.trans hrun')
  have hheader := hstored.2
  rw [hbytes] at hheader
  have hword' : headerLength base content.length < 2 ^ 32 := by
    unfold headerLength u32Sub uint32
    omega
  have hlength := lengthHeader_inj hword' (by omega)
    ((readMem_overlay_self m base (lengthHeader _)).symm.trans hheader)
  by_cases hpos : 0 < content.length
  · rw [headerLength_of_pos hpos (by omega)] at hlength
    omega
  · have hblock : g.writeBlockSize ≤ g.eraseBlockSize := Nat.le_of_dvd g.eraseBlockSize_pos g.dvd
    have hfour : base ≠ 4 := by
      rintro rfl
      have := Nat.le_of_dvd (by omega) hbase
      omega
    have hzero : content.length = 0 := by omega
    rw [hzero] at hlength
    unfold headerLength written u32Sub uint32 u32 kFileHeaderOffset at hlength
    simp only [if_true, Nat.add_zero] at hlength
    omega

/-- A byte behind a flush that ends inside a page, the only one of its value, is lost. -/
theorem Ready.not_stored {content : List UInt8} {v : UInt8} {q : Nat} (h : Ready memoryPartitionTable file base 0 s)
    (hg : s.geometry = g) (hcalls : ∀ c ∈ calls, c.file = file ∧ c.isLastChunk = false ∧ 0 < c.chunk.length)
    (hfile : last.file = file) (hlast : last.isLastChunk = true) (hcontent : (chunksOf calls last).flatten = content)
    (hfits : base + 4 + content.length ≤ g.size) (hword : base + 4 + content.length < 4294967296)
    (hbase : g.eraseBlockSize ∣ base) (hpage : 4 < g.writeBlockSize) (hv : v ≠ 0xFF)
    (hold : s.flashMemory.bytes (base + 4 + q) ≠ v) (hmarked : content[q]? = some v)
    (hmark : ∀ j, content[j]? = some v → j = q) (hq : 0 < q) (hoff : ¬ g.writeBlockSize ∣ base + 4 + q)
    (hcut : ∀ pre chunk post, pre ++ chunk :: post = chunksOf calls last →
      q ≤ pre.flatten.length ∨ pre.flatten.length + chunk.length ≤ q) {s' : Flusher}
    (hrun : flush .salute memoryPartitionTable s (calls ++ [last]) = some s') : ¬ Stored s'.flashMemory base content := by
  have hcarries : Carries g base (chunksOf calls last) fun _ m _ _ => m (base + 4 + q) ≠ v := by
    refine ⟨fun pre chunk post hsplit => ?_, fun _ _ _ _ _ _ hb => hb⟩
    have hjoin : pre.flatten ++ chunk ++ post.flatten = content := by
      rw [← hcontent, ← hsplit]
      simp
    exact unmarked_keeps hv (hjoin ▸ hmark) hq hoff (hcut pre chunk post hsplit)
  obtain ⟨s'', m, block, hrun', hb, hbytes⟩ := h.transfer hg hcalls hfile hlast hcontent hfits hword hbase hpage hcarries
    (fun m m' block hb herased => by
      rcases herased.bytes (base + 4 + q) with he | he
      · rw [he]; exact hb
      · rw [he]; exact hv.symm) hold
  obtain rfl : s' = s'' := Option.some_inj.mp (hrun.symm.trans hrun')
  intro hstored
  obtain ⟨hlt, -⟩ := List.getElem?_eq_some_iff.mp hmarked
  have himage := hstored.1
  rw [← himage, getElem?_readMem hlt, hbytes] at hmarked
  rw [overlay_behind (by rw [length_lengthHeader]; unfold kFileHeaderOffset; omega)] at hmarked
  exact hb (Option.some_inj.mp hmarked)

end

end Esp32Cam.Bft.Flusher

namespace Esp32Cam.Bft.Session

open Esp32Cam.Lib Esp32Cam.Sys Flusher

/-! ## A file that is appended -/

def upload {σ : Type} (subscriber : Subscriber σ) (s : Session σ) (file : File) (chunks : List (List UInt8)) :
    Except Stop (Session σ) :=
  (s.appendAll subscriber file.fileDescriptor chunks).map fun r =>
    r.1.notifyAllOnFileBufferingFinished subscriber file true

/-- The file has been opened and nothing appended to it, and no transfer is under way. -/
structure Fresh (memoryPartitionTable : File → Option Nat) (file : File) (g : FlashMemoryGeometry) (base capacity : Nat)
    (flash : FlashMemory) (flushingState : FlushingState) (s : Session Device) : Prop where
  opened : Opened s file capacity
  capacity : capacity < 2 ^ 31
  cursor : s.ram.memoryPoolCurrentPosition = 0
  empty : ∃ content, Holds s.ram file content 0
  subscribers : s.subscribers = some (flash, flushingState)
  faultFree : flash.FaultFree
  geometry : flash.geometry = g
  idle : flushingState.ongoing = false
  partition : memoryPartitionTable file = some base

def UploadStored (memoryPartitionTable : File → Option Nat) (file : File) (base : Nat) (s : Session Device)
    (chunks : List (List UInt8)) : Prop :=
  ∃ s' flash flushingState, s.upload (flashing .salute memoryPartitionTable) file chunks = .ok s' ∧
    s'.subscribers = some (flash, flushingState) ∧ Stored flash base chunks.flatten

/-- Each flush inside of a file appended in these lengths ends on a page, counted from the header. -/
def FlushedOnPages (g : FlashMemoryGeometry) (capacity : Nat) (lengths : List Nat) : Prop :=
  ∀ k, 0 < ((allFlushLengths capacity 0 lengths).take k).sum → ((allFlushLengths capacity 0 lengths).take k).sum < lengths.sum →
    g.writeBlockSize ∣ kFileHeaderOffset + ((allFlushLengths capacity 0 lengths).take k).sum

section
variable {memoryPartitionTable : File → Option Nat} {file : File} {g : FlashMemoryGeometry} {base capacity : Nat}
variable {flash : FlashMemory} {flushingState : FlushingState} {s : Session Device}

/-- What an upload comes to: the calls of the implementor, the last one with what is left in the buffer. -/
theorem Fresh.upload (h : Fresh memoryPartitionTable file g base capacity flash flushingState s)
    (chunks : List (List UInt8)) :
    ∃ s' calls last, s.upload (flashing .salute memoryPartitionTable) file chunks = .ok s' ∧
      (∀ c ∈ calls, c.file = file ∧ c.isLastChunk = false ∧ 0 < c.chunk.length) ∧ last.file = file ∧ last.isLastChunk = true ∧
      calls.map (·.chunk.length) = allFlushLengths capacity 0 (chunks.map List.length) ∧
      (chunksOf calls last).flatten = chunks.flatten ∧
      s'.subscribers = (Flusher.flush .salute memoryPartitionTable ⟨flash, flushingState, s.ram⟩ (calls ++ [last])).map device := by
  have hwritten : s.ram.written = [] := by rw [SingleBufferRamFileSystem.written, h.cursor, List.take_zero]
  have hflashing : Flashing .salute memoryPartitionTable ⟨flash, flushingState, s.ram⟩ file capacity s.flushes s := by
    refine ⟨h.opened, Or.inr ⟨hwritten, h.empty⟩, [], by simp, by simp, ?_⟩
    rw [h.subscribers]
    rfl
  obtain ⟨s', calls, hrun, hcalls, hlengths, hcontent, hhanded, hdevice⟩ := hflashing.appendAll h.capacity chunks
  rw [h.cursor] at hlengths
  rw [hwritten, List.nil_append] at hcontent
  let last : Call := ⟨file, s'.ram, s'.ram.written, true, hhanded⟩
  refine ⟨s'.notifyAllOnFileBufferingFinished (flashing .salute memoryPartitionTable) file true, calls, last, ?_, hcalls, rfl,
    rfl, hlengths, ?_, ?_⟩
  · rw [Session.upload, hrun]
    rfl
  · rw [flatten_chunksOf]
    exact hcontent
  · show (flashing .salute memoryPartitionTable s'.subscribers last.fs last.file last.isLastChunk).1 = _
    rw [hdevice, flashing_call, flush_concat]

theorem Fresh.ready (h : Fresh memoryPartitionTable file g base capacity flash flushingState s) :
    Ready memoryPartitionTable file base 0 ⟨flash, flushingState, s.ram⟩ :=
  ⟨h.faultFree, by rw [if_pos rfl]; exact ⟨h.idle, h.partition⟩⟩

def ofOpened (flash : FlashMemory) (name : List UInt8) (size : Nat) (new : Allocation) : Session Device :=
  ⟨((FlushingBufferFileSystem.init .init).tryOpenFileWriteBinary name size new).1, some (flash, {}), []⟩

theorem ofOpened_fresh {name : List UInt8} {size : Nat} {new : Allocation} (hfaults : flash.FaultFree)
    (hpartition : memoryPartitionTable (File.new ⟨new.pointer⟩ name) = some base) (hnew : new.pointer ≠ 0)
    (hsize : size ≠ 0)
    (hword : size < 2 ^ 31) :
    Fresh memoryPartitionTable (File.new ⟨new.pointer⟩ name) flash.geometry base size flash {} (ofOpened flash name size new) := by
  have hopens : CanOpen SingleBufferRamFileSystem.init size new := ⟨rfl, hsize, hnew⟩
  obtain ⟨-, hopened, -⟩ := @opened_of_tryOpen Device ⟨.init .init, some (flash, {}), []⟩ name _ _ rfl rfl hopens
  have hram : (ofOpened flash name size new).ram = { SingleBufferRamFileSystem.init with
      memoryPool := new.pointer
      pool := new.block size } := congrArg Prod.fst (SingleBufferRamFileSystem.tryOpen_opened hopens)
  refine ⟨hopened, hword, by rw [hram]; rfl, ⟨[], rfl, by rw [hram]; rfl, by rw [hram]; rfl, by rw [hram]; rfl, Nat.le_refl _,
    rfl, ?_⟩, rfl, hfaults, rfl, rfl, hpartition⟩
  rw [show (ofOpened flash name size new).ram.memoryPoolSize = size from hopened.size]
  exact hword

/-- A chunk begins behind flushes, and ends with one where it is not the last. -/
theorem split_chunksOf {calls : List Call} {last : Call} {lengths : List Nat} {pre post : List (List UInt8)}
    {chunk : List UInt8} (hlengths : calls.map (·.chunk.length) = lengths)
    (hsplit : pre ++ chunk :: post = chunksOf calls last) :
    pre.flatten.length = (lengths.take pre.length).sum ∧
      (pre.length < lengths.length → pre.flatten.length + chunk.length = (lengths.take (pre.length + 1)).sum) := by
  obtain ⟨tail, hmap, htail⟩ : ∃ tail, (chunksOf calls last).map List.length = lengths ++ tail ∧ tail.length ≤ 1 := by
    unfold chunksOf
    rw [List.map_append, List.map_map]
    refine ⟨_, congrArg (· ++ _) hlengths, ?_⟩
    split
    · exact Nat.zero_le _
    · exact Nat.le_refl _
  have hcount : pre.length ≤ lengths.length := by
    have hlength := congrArg List.length hmap
    rw [← hsplit] at hlength
    simp only [List.length_map, List.length_append, List.length_cons] at hlength
    omega
  obtain ⟨hbegins, hends⟩ := length_flatten_of_split hmap hsplit
  rw [List.take_append_of_le_length hcount] at hbegins
  exact ⟨hbegins, fun hlt => by rw [hends, List.take_append_of_le_length hlt]⟩

/-- No chunk reaches over a flush. -/
theorem cut_at_flush {calls : List Call} {last : Call} {lengths : List Nat} {pre post : List (List UInt8)}
    {chunk : List UInt8} (hlengths : calls.map (·.chunk.length) = lengths)
    (hsplit : pre ++ chunk :: post = chunksOf calls last)
    (k : Nat) : (lengths.take k).sum ≤ pre.flatten.length ∨ pre.flatten.length + chunk.length ≤ (lengths.take k).sum := by
  obtain ⟨hbegins, hends⟩ := split_chunksOf hlengths hsplit
  rcases Nat.lt_or_ge pre.length k with hlt | hge
  · by_cases hinside : pre.length < lengths.length
    · exact Or.inr ((hends hinside).trans_le (sum_take_le _ hlt))
    · left
      rw [hbegins, List.take_of_length_le (by omega), List.take_of_length_le (by omega)]
  · exact Or.inl (hbegins ▸ sum_take_le _ hge)

theorem chunk_ne_nil_of_chunksOf {calls : List Call} {last : Call} {chunk : List UInt8}
    (hcalls : ∀ c ∈ calls, c.file = file ∧ c.isLastChunk = false ∧ 0 < c.chunk.length)
    (hmem : chunk ∈ chunksOf calls last) :
    0 < chunk.length := by
  rcases List.mem_append.mp hmem with hmem | hmem
  · obtain ⟨c, hc, rfl⟩ := List.mem_map.mp hmem
    exact (hcalls c hc).2.2
  · split at hmem
    · cases hmem
    · next hne =>
      rw [List.mem_singleton.mp hmem]
      exact List.length_pos_iff.mpr hne

/-- A file of `n` bytes with a value at one place that is nowhere else in it, nor one of an erased cell, nor `b`. -/
theorem exists_marked {n q : Nat} (hq : q < n) (b : UInt8) :
    ∃ (content : List UInt8) (v : UInt8), content.length = n ∧ v ≠ 0xFF ∧ b ≠ v ∧
    content[q]? = some v ∧ ∀ j, content[j]? = some v → j = q := by
  obtain ⟨v, hv, hv0, hb⟩ := exists_marker b
  refine ⟨(List.replicate n 0).set q v, v, by simp, hv, hb, by rw [List.getElem?_set_self (by simpa using hq)], ?_⟩
  intro j hj
  by_contra hne
  rw [List.getElem?_set_ne (Ne.symm hne)] at hj
  exact hv0 (List.eq_of_mem_replicate (List.mem_of_getElem? hj))

/-- A file whose flushes end on pages is stored. -/
theorem Fresh.stored (h : Fresh memoryPartitionTable file g 0 capacity flash flushingState s) {lengths : List Nat}
    (hpage : 4 < g.writeBlockSize) (hfits : 0 + 4 + lengths.sum ≤ g.size) (hword : 0 + 4 + lengths.sum < 4294967296)
    (hpos : 0 < lengths.sum) (hflushes : FlushedOnPages g capacity lengths) {chunks : List (List UInt8)}
    (hchunks : chunks.map List.length = lengths) : UploadStored memoryPartitionTable file 0 s chunks := by
  obtain ⟨s', calls, last, hrun, hcalls, hfile, hlast, hlengths, hcontent, hdevice⟩ := h.upload chunks
  rw [hchunks] at hlengths
  have htotal : chunks.flatten.length = lengths.sum := by rw [List.length_flatten, hchunks]
  have haligned : Aligned g 0 (chunksOf calls last) := by
    intro pre chunk post hsplit
    have hsum := (split_chunksOf hlengths hsplit).1
    have hchunk := chunk_ne_nil_of_chunksOf hcalls (hsplit ▸ List.mem_append_right pre List.mem_cons_self)
    have hwhole := congrArg (fun chunks => chunks.flatten.length) hsplit
    simp only [List.flatten_append, List.flatten_cons, List.length_append, hcontent, htotal] at hwhole
    rw [Nat.zero_add]
    by_cases hzero : pre.flatten.length = 0
    · rw [hzero]
      exact Nat.dvd_zero _
    · rw [written_of_pos (by omega), hsum]
      exact hflushes pre.length (by omega) (by omega)
  obtain ⟨s'', hflush, hstored⟩ := h.ready.stored h.geometry hcalls hfile hlast hcontent (by rw [htotal]; exact hfits)
    (by rw [htotal]; exact hword) hpage (by rw [htotal]; exact hpos) haligned
  exact ⟨s', s''.flashMemory, s''.flushingState, hrun, by rw [hdevice, hflush]; rfl, hstored⟩

/-- What follows where every file appended in these lengths is stored. -/
theorem Fresh.flushes_of_stored {lengths : List Nat}
    (h : Fresh memoryPartitionTable file g base capacity flash flushingState s) (hpage : 4 < g.writeBlockSize)
    (hbase : g.eraseBlockSize ∣ base) (hfits : base + 4 + lengths.sum ≤ g.size)
    (hword : base + 4 + lengths.sum < 4294967296)
    (hall : ∀ chunks : List (List UInt8), chunks.map List.length = lengths →
      UploadStored memoryPartitionTable file base s chunks) :
    base = 0 ∧ 0 < lengths.sum ∧ FlushedOnPages g capacity lengths := by
  have hflush : ∀ chunks : List (List UInt8), chunks.map List.length = lengths → ∃ calls last s',
      (∀ c ∈ calls, c.file = file ∧ c.isLastChunk = false ∧ 0 < c.chunk.length) ∧ last.file = file ∧
      last.isLastChunk = true ∧ calls.map (·.chunk.length) = allFlushLengths capacity 0 lengths ∧
      (chunksOf calls last).flatten = chunks.flatten ∧
      Flusher.flush .salute memoryPartitionTable ⟨flash, flushingState, s.ram⟩ (calls ++ [last]) = some s' ∧
      Stored s'.flashMemory base chunks.flatten := by
    intro chunks hchunks
    obtain ⟨s', calls, last, hrun, hcalls, hfile, hlast, hlengths, hcontent, hdevice⟩ := h.upload chunks
    obtain ⟨s'', flash', flushingState', hrun', hdevice', hstored⟩ := hall chunks hchunks
    obtain rfl : s' = s'' := Except.ok.inj (hrun.symm.trans hrun')
    rw [hdevice'] at hdevice
    obtain ⟨t, ht, hflash⟩ := Option.map_eq_some_iff.mp hdevice.symm
    rw [hchunks] at hlengths
    refine ⟨calls, last, t, hcalls, hfile, hlast, hlengths, hcontent, ht, ?_⟩
    rw [show t.flashMemory = flash' from congrArg Prod.fst hflash]
    exact hstored
  have hsplit : ∀ content : List UInt8, content.length = lengths.sum →
      (lengths.splitLengths content).map List.length = lengths ∧ (lengths.splitLengths content).flatten = content :=
    fun content hcontent => ⟨List.map_splitLengths_length _ _ hcontent.ge, List.flatten_splitLengths _ _ hcontent.le⟩
  obtain ⟨hmap, hflat⟩ := hsplit (List.replicate lengths.sum 0) (by simp)
  obtain ⟨calls, last, s', hcalls, hfile, hlast, -, hcontent, hrun, hstored⟩ := hflush _ hmap
  rw [hflat] at hcontent hstored
  obtain ⟨rfl, hpos⟩ := h.ready.base_of_stored h.geometry hcalls hfile hlast hcontent (by simpa using hfits)
    (by simpa using hword) hbase hpage hrun hstored
  refine ⟨rfl, by simpa using hpos, ?_⟩
  intro k hk hinside
  refine Decidable.by_contra fun hoff => ?_
  generalize hq : ((allFlushLengths capacity 0 lengths).take k).sum = q at hk hinside hoff
  obtain ⟨content, v, hlength, hv, hold, hmarked, hmark⟩ := exists_marked hinside (flash.bytes (0 + 4 + q))
  obtain ⟨hmap, hflat⟩ := hsplit content hlength
  obtain ⟨calls, last, s', hcalls, hfile, hlast, hlengths, hcontent, hrun, hstored⟩ := hflush _ hmap
  rw [hflat] at hcontent hstored
  refine h.ready.not_stored h.geometry hcalls hfile hlast hcontent (by rw [hlength]; exact hfits)
    (by rw [hlength]; exact hword) hbase hpage hv hold hmarked hmark hk (by rwa [Nat.zero_add]) ?_ hrun hstored
  intro pre chunk post hchunks
  rw [← hq]
  exact cut_at_flush hlengths hchunks k

/-- **Files appended to the flash.** A file that is appended in these lengths is stored, whatever its bytes are,
    exactly when it has any, its partition is at address zero, and each flush inside of it ends on a page. -/
theorem appended_file_is_stored_iff {lengths : List Nat}
    (h : Fresh memoryPartitionTable file g base capacity flash flushingState s)
    (hpage : kFileHeaderOffset < g.writeBlockSize)
    (hbase : g.eraseBlockSize ∣ base) (hfits : base + kFileHeaderOffset + lengths.sum ≤ g.size)
    (hword : base + kFileHeaderOffset + lengths.sum < 2 ^ 32) :
    (∀ chunks : List (List UInt8), chunks.map List.length = lengths →
      UploadStored memoryPartitionTable file base s chunks) ↔
    base = 0 ∧ 0 < lengths.sum ∧ FlushedOnPages g capacity lengths := by
  constructor
  · exact h.flushes_of_stored hpage hbase hfits hword
  · intro hstored chunks hchunks
    obtain ⟨rfl, hpos, hflushes⟩ := hstored
    exact h.stored hpage hfits hword hpos hflushes hchunks

end

/-- With a buffer of twelve bytes and pages of eight, the twelve bytes that are flushed end on a page behind the header. -/
theorem twelve_and_five_are_stored : FlushedOnPages smallFlusher.geometry 12 [12, 5] ∧
    ∀ chunks : List (List UInt8), chunks.map List.length = [12, 5] →
      UploadStored saluteFlashMemoryPartitionTable (File.new ⟨1⟩ [0x73, 0x68, 0x6F, 0x77]) 0
        (ofOpened smallFlusher.flashMemory [0x73, 0x68, 0x6F, 0x77] 12 ⟨1, []⟩) chunks := by
  have hflushed : FlushedOnPages smallFlusher.geometry 12 [12, 5] := by
    intro k hk _
    have hlengths : allFlushLengths 12 0 [12, 5] = [12] := by decide
    rw [hlengths] at hk ⊢
    cases k with
    | zero => cases hk
    | succ k =>
      rw [List.take_succ_cons, List.take_nil]
      decide
  refine ⟨hflushed, ?_⟩
  exact (appended_file_is_stored_iff (g := smallFlusher.geometry) (ofOpened_fresh (fun _ => rfl) (if_pos rfl) (by decide)
    (by decide) (by decide)) (by decide) (by decide) (by decide) (by decide)).mpr ⟨rfl, by decide, hflushed⟩

end Esp32Cam.Bft.Session
