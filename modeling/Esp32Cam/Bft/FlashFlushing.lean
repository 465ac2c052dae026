/-
  Esp32Cam.Bft.FlashFlushing — what one page and one chunk leave in the flash memory.

  `Tracks base q s`: the flusher `s` has taken `q` bytes of a file that starts at `base`
  and its write address stands behind them and the header. On a device that does not
  fail, one round of the write loop stores the next bytes of the file in one overlay
  (`writePage_spec`): behind the header for the first page, and at the START of the
  current page for every later one, wherever in that page the address stands.
  `preErase_spec` says what the erase before it changes. `onFileBufferingFinished_run`
  lifts a property that both keep to a whole call.
-/

import Esp32Cam.Bft.FlashMemoryTransferImplementor

namespace Esp32Cam.Bft.Flusher

open Esp32Cam.Lib Esp32Cam.Ut Esp32Cam.Sys

/-! ## The loop -/

section
variable {im : Implementor} {file : File} {isLastChunk : Bool}

/-- The loop rule: what every round keeps holds when the whole buffer is taken. -/
theorem writeFile_run {P : Flusher → Nat → Prop} {bufferSize : Nat}
    (hround : ∀ s total, total < bufferSize → P s total → ∃ s' n, writePage im s.preErase file isLastChunk = .next s' n ∧
      0 < n ∧ total + n ≤ bufferSize ∧ P s' (total + n))
    {fuel total : Nat} {s : Flusher} (hfuel : bufferSize < fuel + total) (htotal : total ≤ bufferSize) (h : P s total) :
    ∃ s', writeFile im file bufferSize isLastChunk fuel s total = .next s' isLastChunk ∧ P s' bufferSize := by
  induction fuel generalizing s total with
  | zero => omega
  | succ fuel ih =>
    by_cases he : total = bufferSize
    · subst he
      exact ⟨s, by simp [writeFile], h⟩
    · obtain ⟨s', n, hw, hn, hle, hp⟩ := hround s total (by omega) h
      have hgt : ¬ bufferSize < total := by omega
      obtain ⟨s'', hrun, hp'⟩ := ih (s := s') (by omega) hle hp
      exact ⟨s'', by simp only [writeFile, he, if_false, gt_iff_lt, hgt, hw, hrun], hp'⟩

/-- A round goes on only with bytes taken from the file. -/
theorem writePage_cases (im : Implementor) (s : Flusher) (file : File) (isLastChunk : Bool) :
    (∃ s' n, 0 < n ∧ writePage im s file isLastChunk = .next s' n) ∨
    (∃ s', writePage im s file isLastChunk = .returned s') ∨ writePage im s file isLastChunk = .panicked := by
  unfold writePage
  split
  · exact Or.inr (Or.inl ⟨_, rfl⟩)
  · next s1 pageBuffer _ =>
    dsimp only
    by_cases hn : (im.formatFlashMemoryPageContent s1 pageBuffer file isLastChunk).2.2.2 = 0
    · exact Or.inr (Or.inr (if_pos hn))
    · rw [if_neg hn]
      split
      · exact Or.inr (Or.inl ⟨_, rfl⟩)
      · exact Or.inl ⟨_, _, Nat.pos_of_ne_zero hn, rfl⟩

/-- The fuel of the write loop is never used up. -/
theorem writeFile_ne_exhausted {bufferSize fuel total : Nat} {s : Flusher} (hfuel : bufferSize < fuel + total) :
    writeFile im file bufferSize isLastChunk (fuel + 1) s total ≠ .exhausted := by
  induction fuel generalizing s total with
  | zero =>
    unfold writeFile
    split
    · nofun
    · have hgt : bufferSize < total := by omega
      simp [hgt]
  | succ fuel ih =>
    unfold writeFile
    split
    · nofun
    · dsimp only
      split
      · nofun
      · rcases writePage_cases im s.preErase file isLastChunk with ⟨s', n, hn, hw⟩ | ⟨s', hw⟩ | hw
        · rw [hw]; exact ih (by omega)
        · rw [hw]; nofun
        · rw [hw]; nofun

end

/-! ## The erase before a page -/

/-- What `preErase` leaves: only bytes and the last erased block change. -/
structure Erases (s s' : Flusher) : Prop where
  geometry : s'.geometry = s.geometry
  faults : s'.flashMemory.faults = s.flashMemory.faults
  fs : s'.fs = s.fs
  baseAddress : s'.flushingState.baseFlashMemoryAddress = s.flushingState.baseFlashMemoryAddress
  address : s'.flushingState.flashMemoryAddress = s.flushingState.flashMemoryAddress
  ongoing : s'.flushingState.ongoing = s.flushingState.ongoing
  lastErased : s'.flushingState.lastErasedBlockOffset =
    s.geometry.convertAddressIntoEraseBlockOffset s.flushingState.flashMemoryAddress
  bytes : ∀ a, s'.flashMemory.bytes a = s.flashMemory.bytes a ∨ s'.flashMemory.bytes a = 0xFF
  before : ∀ a, a < s.geometry.convertAddressIntoEraseBlockOffset s.flushingState.flashMemoryAddress * s.geometry.eraseBlockSize →
    s'.flashMemory.bytes a = s.flashMemory.bytes a
  same : s.flushingState.ongoing = true →
    s.flushingState.lastErasedBlockOffset = s.geometry.convertAddressIntoEraseBlockOffset s.flushingState.flashMemoryAddress →
    s'.flashMemory.bytes = s.flashMemory.bytes

theorem preErase_spec (s : Flusher) : Erases s s.preErase := by
  unfold preErase
  split
  · next h =>
    refine ⟨rfl, rfl, rfl, rfl, rfl, rfl, rfl, fun a => FlashMemory.eraseBlock_bytes_cases _ _ a,
      fun a ha => FlashMemory.eraseBlock_bytes_before _ ha, fun ho he => ?_⟩
    simp [shouldEraseCurrentFlashMemoryBlock, ho, he] at h
  · next h =>
    simp only [shouldEraseCurrentFlashMemoryBlock, Bool.or_eq_true, Bool.not_eq_true', bne_iff_ne, ne_eq, not_or,
      Decidable.not_not] at h
    exact ⟨rfl, rfl, rfl, rfl, rfl, rfl, h.2, fun _ => Or.inl rfl, fun _ _ => rfl, fun _ _ => rfl⟩

/-! ## One page of a Salute file -/

/-- How far behind the base the write address stands when `q` bytes of the file are taken. -/
def written (q : Nat) : Nat := if q = 0 then 0 else kFileHeaderOffset + q

structure Tracks (base q : Nat) (s : Flusher) : Prop where
  faultFree : s.flashMemory.FaultFree
  baseAddress : s.flushingState.baseFlashMemoryAddress = base
  address : s.flushingState.flashMemoryAddress = u32 (base + written q)
  ongoing : s.flushingState.ongoing = true

/-- The bytes kept in front of what the round behind the first `q` bytes stores. -/
def headerRoom (q : Nat) : Nat := if q = 0 then kFileHeaderOffset else 0

/-- Where the bytes behind the first `q` are stored, and how many. -/
def target (g : FlashMemoryGeometry) (base q : Nat) : Nat := g.pageStart (base + written q) + headerRoom q
def room (g : FlashMemoryGeometry) (q : Nat) : Nat := g.writeBlockSize - headerRoom q

theorem headerRoom_le (q : Nat) : headerRoom q ≤ 4 := by unfold headerRoom kFileHeaderOffset; split <;> omega

theorem room_pos {g : FlashMemoryGeometry} (h : 4 < g.writeBlockSize) (q : Nat) : 0 < room g q := by
  have := headerRoom_le q
  unfold room; omega

theorem written_add {q n : Nat} (hn : 0 < n) : written (q + n) = written q + (n + headerRoom q) := by
  unfold written headerRoom kFileHeaderOffset; split <;> split <;> omega

theorem written_add_headerRoom (q : Nat) : written q + headerRoom q = 4 + q := by
  unfold written headerRoom kFileHeaderOffset; split <;> omega

theorem written_le (q : Nat) : written q ≤ 4 + q := by unfold written kFileHeaderOffset; split <;> omega

theorem written_of_pos {q : Nat} (h : 0 < q) : written q = 4 + q := by unfold written kFileHeaderOffset; split <;> omega

theorem Tracks.preErase {base q : Nat} {s : Flusher} (h : Tracks base q s) : Tracks base q s.preErase := by
  have e := preErase_spec s
  exact ⟨fun n => by rw [e.faults]; exact h.faultFree n, e.baseAddress.trans h.baseAddress, e.address.trans h.address,
    e.ongoing.trans h.ongoing⟩

section
variable {s : Flusher} {base q total : Nat} {file : File} {chunk : List UInt8}

/-- The bytes of the buffer that a round behind `total` of them and `q` of the file takes. -/
def taken (g : FlashMemoryGeometry) (q total : Nat) (chunk : List UInt8) : List UInt8 :=
  (chunk.drop total).take (room g q)

/-- The first chunk is the one no byte was taken before. -/
theorem Tracks.isFirstChunk (h : Tracks base q s) (ha : base + written q < 4294967296) :
    s.flushingState.isFirstChunk = decide (q = 0) := by
  simp only [FlushingState.isFirstChunk, h.baseAddress, h.address, u32_of_lt ha]
  unfold written kFileHeaderOffset at *
  split <;> simp_all

theorem saluteFormat_spec (h : Tracks base q s) (ha : base + written q < 4294967296)
    (hbase : s.geometry.writeBlockSize ∣ base) (hpage : 4 < s.geometry.writeBlockSize)
    (hf : Holds s.fs file chunk total) (pageBuffer : List UInt8) (isLastChunk : Bool) :
    s.saluteFormatFlashMemoryPageContent pageBuffer file isLastChunk =
      ({ s with fs := { s.fs with memoryPoolCurrentPosition := total + (taken s.geometry q total chunk).length } },
        splice pageBuffer (headerRoom q) (taken s.geometry q total chunk),
        (taken s.geometry q total chunk).length + headerRoom q, (taken s.geometry q total chunk).length) := by
  have hlt := s.geometry.writeBlockSize_lt
  have hsub : u32Sub s.geometry.writeBlockSize 4 = s.geometry.writeBlockSize - 4 := by unfold u32Sub uint32; omega
  simp only [saluteFormatFlashMemoryPageContent, formatFlashMemoryPageContent, h.isFirstChunk ha, decide_eq_true_eq,
    h.baseAddress, s.geometry.inner_of_dvd hbase, readIntoPage, taken, room, headerRoom, kFileHeaderOffset, hsub]
  split
  · next hq => simp only [gt_iff_lt, Nat.sub_pos_of_lt hpage, if_true, hf.read]
  · next hq => simp only [Nat.sub_zero, gt_iff_lt, s.geometry.writeBlockSize_pos, if_true, hf.read]

/-- What a round leaves: the next bytes of the buffer are stored at the target. -/
structure Writes (s s' : Flusher) (base q total : Nat) (file : File) (chunk data : List UInt8) : Prop where
  tracks : Tracks base (q + data.length) s'
  geometry : s'.geometry = s.geometry
  lastErased : s'.flushingState.lastErasedBlockOffset = s.flushingState.lastErasedBlockOffset
  holds : Holds s'.fs file chunk (total + data.length)
  pool : s'.fs.pool = s.fs.pool
  bytes : s'.flashMemory.bytes = overlay s.flashMemory.bytes (target s.geometry base q) data

theorem length_taken (hpage : 4 < s.geometry.writeBlockSize) (ht : total < chunk.length) :
    0 < (taken s.geometry q total chunk).length ∧ total + (taken s.geometry q total chunk).length ≤ chunk.length ∧
      headerRoom q + (taken s.geometry q total chunk).length ≤ s.geometry.writeBlockSize := by
  have hr := room_pos hpage q
  have hh := headerRoom_le q
  simp only [taken, List.length_take, List.length_drop]
  unfold room at *
  omega

/-- Reading the current page answers its bytes and changes none. -/
theorem tryRead_spec {a : Nat} (hd : s.flashMemory.FaultFree) (haddr : s.flushingState.flashMemoryAddress = a)
    (ha : a < s.geometry.size) : ∃ d, s.tryReadCurrentFlashMemoryPageContent =
      ({ s with flashMemory := d }, some (readMem s.flashMemory.bytes (s.geometry.pageStart a) s.geometry.writeBlockSize)) ∧
      d.bytes = s.flashMemory.bytes ∧ d.geometry = s.flashMemory.geometry ∧ d.FaultFree := by
  refine ⟨(s.flashMemory.readBlock (a / s.geometry.writeBlockSize) 0 s.geometry.writeBlockSize).1, ?_, by simp, by simp,
    fun n => by simpa using hd n⟩
  have hin := s.geometry.pageStart_add_le ha
  have hr := hd.readBlock (i := a / s.geometry.writeBlockSize) (o := 0) (n := s.geometry.writeBlockSize) hin
  simp only [tryReadCurrentFlashMemoryPageContent, haddr, FlashMemoryGeometry.convertAddressIntoWriteBlockOffset]
  exact Prod.ext rfl hr

/-- Writing a page back stores it where the current page starts. -/
theorem tryWrite_spec {a : Nat} {p : List UInt8} (hd : s.flashMemory.FaultFree)
    (haddr : s.flushingState.flashMemoryAddress = a) (ha : a < s.geometry.size)
    (hlen : p.length = s.geometry.writeBlockSize) : ∃ d, s.tryWriteIntoCurrentFlashMemoryPage p =
      ({ s with flashMemory := d }, true) ∧ d.bytes = overlay s.flashMemory.bytes (s.geometry.pageStart a) p ∧
      d.geometry = s.flashMemory.geometry ∧ d.FaultFree := by
  have hin := s.geometry.pageStart_add_le ha
  rw [← hlen] at hin
  obtain ⟨hb, hok⟩ := hd.writeBlock (i := a / s.geometry.writeBlockSize) (o := 0) hin
  refine ⟨(s.flashMemory.writeBlock (a / s.geometry.writeBlockSize) 0 p).1, ?_, hb, rfl, fun n => hd n⟩
  simp only [tryWriteIntoCurrentFlashMemoryPage, haddr, FlashMemoryGeometry.convertAddressIntoWriteBlockOffset]
  exact Prod.ext rfl hok

theorem writePage_spec (h : Tracks base q s) (ha : base + written q < s.geometry.size)
    (hbase : s.geometry.writeBlockSize ∣ base) (hpage : 4 < s.geometry.writeBlockSize)
    (hf : Holds s.fs file chunk total) (ht : total < chunk.length) (isLastChunk : Bool) :
    ∃ s', writePage saluteFlashMemoryTransferImplementor s file isLastChunk =
        .next s' (taken s.geometry q total chunk).length ∧
      Writes s s' base q total file chunk (taken s.geometry q total chunk) := by
  obtain ⟨hpos, htot, hfit⟩ := length_taken (q := q) hpage ht
  have hword : base + written q < 4294967296 := Nat.lt_of_lt_of_le ha s.geometry.addressable
  have haddr : s.flushingState.flashMemoryAddress = base + written q := by rw [h.address, u32_of_lt hword]
  generalize hdata : taken s.geometry q total chunk = data at *
  obtain ⟨d, hread, hdb, hdg, hdf⟩ := tryRead_spec h.faultFree haddr ha
  -- the page is formatted with the device as the read left it
  have h1 : Tracks base q { s with flashMemory := d } := ⟨hdf, h.baseAddress, h.address, h.ongoing⟩
  have hg1 : ({ s with flashMemory := d } : Flusher).geometry = s.geometry := hdg
  have hformat := saluteFormat_spec h1 hword (hg1 ▸ hbase) (hg1 ▸ hpage) hf
    (readMem s.flashMemory.bytes (s.geometry.pageStart (base + written q)) s.geometry.writeBlockSize) isLastChunk
  rw [hg1, hdata] at hformat
  generalize hp : splice (readMem s.flashMemory.bytes (s.geometry.pageStart (base + written q)) s.geometry.writeBlockSize)
    (headerRoom q) data = page at *
  have hlen : page.length = s.geometry.writeBlockSize := by
    rw [← hp, length_splice (by simpa using hfit)]; simp
  generalize hs2 : updatePageBufferCrc32
    { s with flashMemory := d, fs := { s.fs with memoryPoolCurrentPosition := total + data.length } } page
    (data.length + headerRoom q) = s2 at *
  obtain ⟨d2, hwrite, hb2, hg2, hf2⟩ := tryWrite_spec (s := s2) (a := base + written q) (p := page)
    (by rw [← hs2]; exact hdf) (by rw [← hs2]; exact haddr) (by rw [← hs2]; exact hg1 ▸ ha)
    (by rw [← hs2]; exact hlen.trans (congrArg _ hg1.symm))
  have hn : data.length ≠ 0 := by omega
  refine ⟨advance { s2 with flashMemory := d2 } (data.length + headerRoom q), ?_, ?_⟩
  · simp only [writePage, hread, saluteFlashMemoryTransferImplementor, hformat, hs2, hn, if_false, hwrite]
  · subst hs2
    refine ⟨⟨hf2, h.baseAddress, ?_, h.ongoing⟩, hg2.trans hdg, rfl, ?_, rfl, ?_⟩
    · simp only [advance, updatePageBufferCrc32, haddr]
      rw [written_add hpos, Nat.add_assoc]
    · exact hf.at_cursor htot
    · calc d2.bytes = overlay d.bytes (d.geometry.pageStart (base + written q)) page := hb2
        _ = overlay s.flashMemory.bytes (s.geometry.pageStart (base + written q)) page := by rw [hdb, hdg]; rfl
        _ = overlay s.flashMemory.bytes (target s.geometry base q) data := by
          rw [← hp, overlay_splice_readMem (by omega)]; rfl

end

/-! ## One chunk -/

/-- A flusher that is to take the bytes behind the first `q` of a file at `base`. -/
structure Ready (memoryPartitionTable : File → Option Nat) (file : File) (base q : Nat) (s : Flusher) : Prop where
  faultFree : s.flashMemory.FaultFree
  started : if q = 0 then s.flushingState.ongoing = false ∧ memoryPartitionTable file = some base else Tracks base q s

/-- What an erase of the block `block` may do to the memory `m` when `last` was erased last. -/
structure ErasedFrom (g : FlashMemoryGeometry) (m m' : Nat → UInt8) (last block : Nat) (fresh : Bool) : Prop where
  bytes : ∀ a, m' a = m a ∨ m' a = 0xFF
  before : ∀ a, a < block * g.eraseBlockSize → m' a = m a
  same : fresh = false → last = block → m' = m

section
variable {memoryPartitionTable : File → Option Nat} {file : File} {base q : Nat} {s : Flusher} {chunk : List UInt8}

theorem Erases.erasedFrom {s s' : Flusher} (e : Erases s s') (fresh : Bool)
    (hf : fresh = false → s.flushingState.ongoing = true) :
    ErasedFrom s.geometry s.flashMemory.bytes s'.flashMemory.bytes s.flushingState.lastErasedBlockOffset
      (s.geometry.convertAddressIntoEraseBlockOffset s.flushingState.flashMemoryAddress) fresh :=
  ⟨e.bytes, e.before, fun h hl => e.same (hf h) hl⟩

/-- The start of a call: the transfer is started where it is not under way, and a block erased. -/
theorem Ready.begin (h : Ready memoryPartitionTable file base q s) (ha : base + written q < 4294967296) :
    ∃ s0, start memoryPartitionTable s file = some s0 ∧ s0.preErase.fs = s.fs ∧ s0.preErase.geometry = s.geometry ∧
      Tracks base q s0.preErase.setOngoing ∧
      s0.preErase.flushingState.lastErasedBlockOffset = s.geometry.convertAddressIntoEraseBlockOffset (base + written q) ∧
      ErasedFrom s.geometry s.flashMemory.bytes s0.preErase.flashMemory.bytes s.flushingState.lastErasedBlockOffset
        (s.geometry.convertAddressIntoEraseBlockOffset (base + written q)) (decide (q = 0)) := by
  obtain ⟨hd, hst⟩ := h
  have hw : u32 (base + written q) = base + written q := u32_of_lt ha
  split at hst
  · next hq =>
    obtain ⟨hon, htab⟩ := hst
    have e := preErase_spec (s.startAt base)
    have haddr : (s.startAt base).flushingState.flashMemoryAddress = base + written q := by rw [hq]; rfl
    refine ⟨s.startAt base, by simp [start, hon, htab], e.fs, e.geometry,
      ⟨fun n => by rw [← hd n]; exact congrFun e.faults n, e.baseAddress, ?_, rfl⟩, ?_, ?_⟩
    · rw [hw, ← haddr]; exact e.address
    · rw [← haddr]; exact e.lastErased
    · rw [← haddr]; exact e.erasedFrom _ (by simp [hq])
  · next hq =>
    have e := preErase_spec s
    have haddr : s.flushingState.flashMemoryAddress = base + written q := by rw [hst.address, hw]
    refine ⟨s, by simp [start, hst.ongoing], e.fs, e.geometry, ⟨hst.preErase.faultFree, hst.preErase.baseAddress,
      hst.preErase.address, rfl⟩, ?_, ?_⟩
    · rw [← haddr]; exact e.lastErased
    · rw [← haddr]; exact e.erasedFrom _ (fun _ => hst.ongoing)

/-- What the erases and the page writes of a chunk keep: a property of the memory, of the block
    erased last and of the number of bytes taken. -/
structure Keeps (g : FlashMemoryGeometry) (base q : Nat) (chunk : List UInt8) (B : (Nat → UInt8) → Nat → Nat → Prop) :
    Prop where
  erase : ∀ m m' last total fresh, total < chunk.length → (fresh = true → q + total = 0) → B m last (q + total) →
    ErasedFrom g m m' last (g.convertAddressIntoEraseBlockOffset (base + written (q + total))) fresh →
    B m' (g.convertAddressIntoEraseBlockOffset (base + written (q + total))) (q + total)
  write : ∀ m total, total < chunk.length →
    B m (g.convertAddressIntoEraseBlockOffset (base + written (q + total))) (q + total) →
    B (overlay m (target g base (q + total)) (taken g (q + total) total chunk))
      (g.convertAddressIntoEraseBlockOffset (base + written (q + total)))
      (q + (total + (taken g (q + total) total chunk).length))

variable {g : FlashMemoryGeometry} {B : (Nat → UInt8) → Nat → Nat → Prop} (isLastChunk : Bool)

theorem writeFile_spec (h : Tracks base q s) (hg : s.geometry = g) (hf : Holds s.fs file chunk 0)
    (hfit : base + 4 + q + chunk.length ≤ g.size) (hbase : g.eraseBlockSize ∣ base) (hpage : 4 < g.writeBlockSize)
    (hkeeps : Keeps g base q chunk B) (hB : B s.flashMemory.bytes s.flushingState.lastErasedBlockOffset q) :
    ∃ s', writeFile saluteFlashMemoryTransferImplementor file chunk.length isLastChunk (chunk.length + 1) s 0 =
        .next s' isLastChunk ∧ Tracks base (q + chunk.length) s' ∧ s'.geometry = g ∧
      (Holds s'.fs file chunk chunk.length ∧ s'.fs.pool = s.fs.pool) ∧
      B s'.flashMemory.bytes s'.flushingState.lastErasedBlockOffset (q + chunk.length) := by
  refine writeFile_run (P := fun s' total => Tracks base (q + total) s' ∧ s'.geometry = g ∧
    (Holds s'.fs file chunk total ∧ s'.fs.pool = s.fs.pool) ∧
    B s'.flashMemory.bytes s'.flushingState.lastErasedBlockOffset (q + total))
    ?_ (by omega) (Nat.zero_le _) ⟨h, hg, ⟨hf, rfl⟩, hB⟩
  intro s1 total ht ⟨htr, hg1, ⟨hh, hpool⟩, hb⟩
  have e := preErase_spec s1
  have hg0 : s1.preErase.geometry = g := e.geometry.trans hg1
  have hle := written_le (q + total)
  have ha : base + written (q + total) < g.size := by omega
  have haddr : s1.flushingState.flashMemoryAddress = base + written (q + total) := by
    rw [htr.address, u32_of_lt (Nat.lt_of_lt_of_le ha g.addressable)]
  obtain ⟨s2, hw, hwr⟩ := writePage_spec (q := q + total) htr.preErase (hg0 ▸ ha)
    (hg0 ▸ g.dvd_of_erase_dvd hbase) (hg0 ▸ hpage) (e.fs ▸ hh) ht isLastChunk
  obtain ⟨hpos, htot, _⟩ := length_taken (s := s1.preErase) (q := q + total) (hg0 ▸ hpage) ht
  have hlast : s1.preErase.flushingState.lastErasedBlockOffset =
      g.convertAddressIntoEraseBlockOffset (base + written (q + total)) := by
    rw [e.lastErased, hg1, haddr]
  have her := e.erasedFrom false (fun _ => htr.ongoing)
  rw [hg1, haddr] at her
  have hb' := hkeeps.write _ total ht (hkeeps.erase _ _ _ total false ht nofun hb her)
  rw [hg0] at hw hwr hpos htot
  refine ⟨s2, _, hw, hpos, htot, ?_, hwr.geometry.trans hg0, ⟨hwr.holds, ?_⟩, ?_⟩
  · rw [← Nat.add_assoc]; exact hwr.tracks
  · rw [hwr.pool, e.fs, hpool]
  · rw [hwr.bytes, hwr.lastErased, hlast, hg0]
    exact hb'

/-- A whole call, up to what follows the loop. -/
theorem onFileBufferingFinished_run (h : Ready memoryPartitionTable file base q s) (hg : s.geometry = g)
    (hf : Holds s.fs file chunk chunk.length) (hfit : base + 4 + q + chunk.length ≤ g.size) (hne : 0 < chunk.length)
    (hbase : g.eraseBlockSize ∣ base) (hpage : 4 < g.writeBlockSize)
    (hkeeps : Keeps g base q chunk B) (hB : B s.flashMemory.bytes s.flushingState.lastErasedBlockOffset q) :
    ∃ s', onFileBufferingFinished saluteFlashMemoryTransferImplementor memoryPartitionTable s file isLastChunk =
        finish saluteFlashMemoryTransferImplementor s' file isLastChunk ∧
      Tracks base (q + chunk.length) s' ∧ s'.geometry = g ∧ (Holds s'.fs file chunk chunk.length ∧ s'.fs.pool = s.fs.pool) ∧
      B s'.flashMemory.bytes s'.flushingState.lastErasedBlockOffset (q + chunk.length) := by
  have hle := written_le q
  have hsize := g.addressable
  have ha : base + written q < g.size := by omega
  obtain ⟨s0, hstart, hfs, hg0, htr, hlast, her⟩ := h.begin (Nat.lt_of_lt_of_le ha hsize)
  rw [hg] at hlast her
  have hB0 := hkeeps.erase _ _ _ 0 (decide (q = 0)) hne (by simp) hB her
  obtain ⟨s', hrun, hres⟩ := writeFile_spec isLastChunk
    (s := { s0.preErase.setOngoing with fs := { s.fs with memoryPoolCurrentPosition := 0 } })
    ⟨htr.faultFree, htr.baseAddress, htr.address, htr.ongoing⟩ (hg0.trans hg) (hf.at_cursor (Nat.zero_le _)) hfit hbase
    hpage hkeeps (by rw [Nat.add_zero, ← hlast] at hB0; exact hB0)
  refine ⟨s', ?_, hres⟩
  have hfs' : s0.preErase.setOngoing.fs = s.fs := hfs
  simp only [onFileBufferingFinished, hstart, hfs', hf.getCurrentPosition, hf.rewind, hrun]

end

end Esp32Cam.Bft.Flusher
