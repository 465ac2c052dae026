/-
  Esp32Cam.Bft.SaluteFlashImage — the image of a file that is flushed in chunks.

  `flushChunks` buffers a chunk and hands the buffer over, chunk by chunk. The image is
  correct (`FlashImageCorrect`) when after every chunk the flash holds, behind the
  header, what has been flushed so far, and after the last one the header holds the
  length.

  The first page leaves room for the header; every later round stores at the start of
  the current page, because the inner offset is taken of the base address and not of
  the write address. A chunk that begins inside a page is stored over the end of the
  one before it (`a_chunk_begun_inside_a_page_is_stored_over_the_one_before`), and the
  length in the header is counted from address zero. So the image is correct for every
  content exactly when the file starts at address zero and every chunk but the last
  ends on a page boundary (`flash_image_correct_iff`).
-/

import Mathlib.Data.List.SplitLengths
import Esp32Cam.Bft.FlashFlushing

namespace Esp32Cam.Bft.Flusher

open Esp32Cam.Lib Esp32Cam.Ut Esp32Cam.Sys

/-! ## What follows the last chunk -/

def lengthHeader (n : Nat) : List UInt8 :=
  endiannessAwareRepresentation kCurrentIsLittleEndian kSaluteIsLittleEndian n

@[simp] theorem length_lengthHeader (n : Nat) : (lengthHeader n).length = 4 := rfl

theorem lengthHeader_inj {a b : Nat} (ha : a < 2 ^ 32) (hb : b < 2 ^ 32) (h : lengthHeader a = lengthHeader b) : a = b :=
  le32_inj ha hb h

/-- Only the checksums and the trace of the device differ. -/
structure SameFlash (s s' : Flusher) : Prop where
  bytes : s'.flashMemory.bytes = s.flashMemory.bytes
  geometry : s'.geometry = s.geometry
  faults : s'.flashMemory.faults = s.flashMemory.faults
  fs : s'.fs = s.fs
  baseAddress : s'.flushingState.baseFlashMemoryAddress = s.flushingState.baseFlashMemoryAddress
  address : s'.flushingState.flashMemoryAddress = s.flushingState.flashMemoryAddress

theorem SameFlash.trans {s s' s'' : Flusher} (h : SameFlash s s') (h' : SameFlash s' s'') : SameFlash s s'' :=
  ⟨h'.bytes.trans h.bytes, h'.geometry.trans h.geometry, h'.faults.trans h.faults, h'.fs.trans h.fs,
    h'.baseAddress.trans h.baseAddress, h'.address.trans h.address⟩

theorem readFlashMemoryCrc32_same (fuel : Nat) (s : Flusher) (a : Nat) : SameFlash s (readFlashMemoryCrc32 fuel s a) := by
  induction fuel generalizing s a with
  | zero => exact ⟨rfl, rfl, rfl, rfl, rfl, rfl⟩
  | succ fuel ih =>
    unfold readFlashMemoryCrc32
    split
    · exact ⟨rfl, rfl, rfl, rfl, rfl, rfl⟩
    · dsimp only
      generalize hn : min (u32Sub s.flushingState.flashMemoryAddress a) s.geometry.writeBlockSize = n
      have hb := s.flashMemory.readBlock_bytes (s.geometry.convertAddressIntoWriteBlockOffset a)
        (s.geometry.convertAddressIntoWriteBlockInnerOffset a) n
      have hg := s.flashMemory.readBlock_geometry (s.geometry.convertAddressIntoWriteBlockOffset a)
        (s.geometry.convertAddressIntoWriteBlockInnerOffset a) n
      have hf := s.flashMemory.readBlock_faults (s.geometry.convertAddressIntoWriteBlockOffset a)
        (s.geometry.convertAddressIntoWriteBlockInnerOffset a) n
      generalize s.flashMemory.readBlock _ _ _ = r at *
      obtain ⟨d, buffer⟩ := r
      cases buffer with
      | none => exact ⟨hb, hg, hf, rfl, rfl, rfl⟩
      | some buffer =>
        refine SameFlash.trans ?_ (ih _ _)
        exact ⟨hb, hg, hf, rfl, rfl, rfl⟩

theorem updateFlashMemoryCrc32_same (s : Flusher) : SameFlash s s.updateFlashMemoryCrc32 := by
  unfold updateFlashMemoryCrc32
  split
  · exact ⟨rfl, rfl, rfl, rfl, rfl, rfl⟩
  · exact readFlashMemoryCrc32_same _ _ _

section
variable {s : Flusher} {g : FlashMemoryGeometry} {base q : Nat}

theorem finish_of_not_last (s : Flusher) (file : File) :
    finish saluteFlashMemoryTransferImplementor s file false = some s := rfl

/-- After the last chunk the header, counted from the write address, is stored over the start of the first page. -/
theorem finish_header (s : Flusher) (file : File) (hd : s.flashMemory.FaultFree)
    (hin : s.flushingState.baseFlashMemoryAddress < s.geometry.size) (hheader : kFileHeaderOffset ≤ s.geometry.writeBlockSize) :
    ∃ s', finish saluteFlashMemoryTransferImplementor s file true = some s' ∧
      s'.flashMemory.bytes = overlay s.flashMemory.bytes (s.geometry.pageStart s.flushingState.baseFlashMemoryAddress)
        (lengthHeader (u32Sub s.flushingState.flashMemoryAddress kFileHeaderOffset)) := by
  have e := updateFlashMemoryCrc32_same s
  generalize hs₁ : s.updateFlashMemoryCrc32 = s₁ at *
  generalize hg : s.geometry = g at *
  have hg₁ : s₁.flashMemory.geometry = g := e.geometry.trans hg
  have hd₁ : s₁.flashMemory.FaultFree := fun n => by rw [e.faults]; exact hd n
  have hpage := g.pageStart_add_le hin
  have hread := hd₁.readBlock (o := 0)
    (i := g.convertAddressIntoWriteBlockOffset s.flushingState.baseFlashMemoryAddress) (n := g.writeBlockSize)
    (by rw [hg₁]; exact hpage)
  rw [hg₁, Nat.add_zero] at hread
  change _ = some (readMem s₁.flashMemory.bytes (g.pageStart s.flushingState.baseFlashMemoryAddress) g.writeBlockSize) at hread
  generalize hr : s₁.flashMemory.readBlock
    (g.convertAddressIntoWriteBlockOffset s.flushingState.baseFlashMemoryAddress) 0 g.writeBlockSize = r at *
  obtain ⟨d, page⟩ := r
  dsimp only at hread
  subst hread
  have hdr := congrArg Prod.fst hr
  dsimp only at hdr
  have hdb : d.bytes = s₁.flashMemory.bytes := by rw [← hdr]; simp
  have hdg : d.geometry = g := by rw [← hdr]; exact hg₁
  have hdf : d.FaultFree := fun n => by rw [← hdr]; exact hd₁ n
  generalize hheader' : lengthHeader (u32Sub s.flushingState.flashMemoryAddress kFileHeaderOffset) = header at *
  have hlength : header.length = kFileHeaderOffset := by rw [← hheader']; rfl
  have hsplice : (splice (readMem s₁.flashMemory.bytes (g.pageStart s.flushingState.baseFlashMemoryAddress)
      g.writeBlockSize) 0 header).length = g.writeBlockSize := by
    rw [length_splice (by simp; omega)]
    simp
  have hwrite := hdf.writeBlock (o := 0)
    (i := g.convertAddressIntoWriteBlockOffset s.flushingState.baseFlashMemoryAddress)
    (x := splice (readMem s₁.flashMemory.bytes (g.pageStart s.flushingState.baseFlashMemoryAddress) g.writeBlockSize) 0 header)
    (by rw [hdg, hsplice]; exact hpage)
  rw [hdg, Nat.add_zero, hdb] at hwrite
  change _ = overlay s₁.flashMemory.bytes (g.pageStart s.flushingState.baseFlashMemoryAddress) _ ∧ _ at hwrite
  rw [overlay_splice_readMem (by omega), Nat.add_zero] at hwrite
  generalize hw : d.writeBlock _ _ _ = w at hwrite
  obtain ⟨d', ok⟩ := w
  obtain ⟨hd', rfl⟩ := hwrite
  refine ⟨{ s₁ with flashMemory := d', flushingState := {} }, ?_, hd'.trans (by rw [e.bytes])⟩
  have hrepresentation : endiannessAwareRepresentation kCurrentIsLittleEndian kSaluteIsLittleEndian
      (u32Sub s.flushingState.flashMemoryAddress kFileHeaderOffset) = header := hheader'
  have hgeometry : s₁.geometry = g := hg₁
  simp only [finish, hs₁, saluteFlashMemoryTransferImplementor, saluteOnFileBufferingFinishedPostChunkFlushed, if_true,
    Bool.not_true, Bool.false_eq_true, if_false, hgeometry, e.baseAddress, e.address, hr, hrepresentation, hw,
    Option.map_some]

theorem finish_of_last (file : File) (h : Tracks base q s) (hg : s.geometry = g) (hq : 0 < q) (hfit : base + 4 + q ≤ g.size)
    (hbase : g.writeBlockSize ∣ base) (hpage : 4 < g.writeBlockSize) :
    ∃ s', finish saluteFlashMemoryTransferImplementor s file true = some s' ∧
      s'.flashMemory.bytes = overlay s.flashMemory.bytes base (lengthHeader (base + q)) := by
  subst hg
  have hword := s.geometry.addressable
  change s.geometry.size ≤ 4294967296 at hword
  have hlength : u32Sub s.flushingState.flashMemoryAddress kFileHeaderOffset = base + q := by
    rw [h.address, written_of_pos hq]
    exact u32Sub_u32 (by unfold kFileHeaderOffset; omega) (by omega)
  obtain ⟨s', hfinish, hbytes⟩ := finish_header s file h.faultFree (by rw [h.baseAddress]; omega) hpage.le
  rw [h.baseAddress, s.geometry.pageStart_of_dvd hbase, hlength] at hbytes
  exact ⟨s', hfinish, hbytes⟩

end

/-! ## The calls -/

def bufferChunk (s : Flusher) (file : File) (chunk : List UInt8) : Flusher := { s with fs := refill s.fs file chunk }

/-- Each chunk is buffered and handed over; `none` when the program panics. -/
def flushChunks (memoryPartitionTable : File → Option Nat) (file : File) : Flusher → List (List UInt8 × Bool) → Option Flusher
  | s, [] => some s
  | s, (chunk, isLastChunk) :: calls =>
    (onFileBufferingFinished saluteFlashMemoryTransferImplementor memoryPartitionTable (s.bufferChunk file chunk) file
      isLastChunk).bind fun s => flushChunks memoryPartitionTable file s calls

/-- After every chunk the flash holds what has been flushed, and after the last one the length too. -/
def FlashImageCorrect (memoryPartitionTable : File → Option Nat) (file : File) (base : Nat) (s : Flusher)
    (chunks : List (List UInt8)) (lastChunk : List UInt8) : Prop :=
  (∀ k ≤ chunks.length, ∃ s', flushChunks memoryPartitionTable file s ((chunks.take k).map (·, false)) = some s' ∧
    readMem s'.flashMemory.bytes (base + 4) (chunks.take k).flatten.length = (chunks.take k).flatten) ∧
  ∃ s', flushChunks memoryPartitionTable file s (chunks.map (·, false) ++ [(lastChunk, true)]) = some s' ∧
    readMem s'.flashMemory.bytes (base + 4) (chunks.flatten ++ lastChunk).length = chunks.flatten ++ lastChunk ∧
    readMem s'.flashMemory.bytes base 4 = lengthHeader (chunks.flatten ++ lastChunk).length

theorem flushChunks_append (memoryPartitionTable : File → Option Nat) (file : File) (s : Flusher)
    (calls calls' : List (List UInt8 × Bool)) :
    flushChunks memoryPartitionTable file s (calls ++ calls') =
      (flushChunks memoryPartitionTable file s calls).bind fun s' => flushChunks memoryPartitionTable file s' calls' := by
  induction calls generalizing s with
  | nil => rfl
  | cons call calls ih =>
    obtain ⟨chunk, isLastChunk⟩ := call
    simp only [List.cons_append, flushChunks, Option.bind_assoc, ih]

/-- Between two calls: `q` bytes are flushed, and the buffer is open and takes `capacity` bytes. -/
structure Between (memoryPartitionTable : File → Option Nat) (file : File) (g : FlashMemoryGeometry) (base capacity q : Nat)
    (s : Flusher) : Prop where
  ready : Ready memoryPartitionTable file base q s
  geometry : s.geometry = g
  file : IsOpen s.fs file
  capacity : s.fs.memoryPoolSize = capacity

section
variable {memoryPartitionTable : File → Option Nat} {file : File} {g : FlashMemoryGeometry} {base capacity q : Nat}
variable {s : Flusher} {chunk : List UInt8} {B : (Nat → UInt8) → Nat → Nat → Prop}

/-- A call that is not the last. -/
theorem Between.call (h : Between memoryPartitionTable file g base capacity q s) (hne : 0 < chunk.length)
    (hcap : chunk.length ≤ capacity) (hfit : base + 4 + q + chunk.length ≤ g.size) (hbase : g.eraseBlockSize ∣ base)
    (hpage : 4 < g.writeBlockSize) (hkeeps : Keeps g base q chunk B)
    (hB : B s.flashMemory.bytes s.flushingState.lastErasedBlockOffset q) (isLastChunk : Bool) :
    ∃ s', onFileBufferingFinished saluteFlashMemoryTransferImplementor memoryPartitionTable (s.bufferChunk file chunk) file
        isLastChunk = finish saluteFlashMemoryTransferImplementor s' file isLastChunk ∧
      Tracks base (q + chunk.length) s' ∧
      Between memoryPartitionTable file g base capacity (q + chunk.length) s' ∧
      B s'.flashMemory.bytes s'.flushingState.lastErasedBlockOffset (q + chunk.length) := by
  obtain ⟨hholds, hsize⟩ := h.file.refill (b := chunk) (by rw [h.capacity]; exact hcap)
  have hready : Ready memoryPartitionTable file base q (s.bufferChunk file chunk) := by
    refine ⟨h.ready.faultFree, ?_⟩
    have hst := h.ready.started
    by_cases hq : q = 0
    · rw [if_pos hq] at hst ⊢; exact hst
    · rw [if_neg hq] at hst ⊢; exact ⟨hst.faultFree, hst.baseAddress, hst.address, hst.ongoing⟩
  obtain ⟨s', hrun, htr, hg, ⟨hh, hpool⟩, hb⟩ := onFileBufferingFinished_run isLastChunk hready h.geometry hholds hfit hne
    hbase hpage hkeeps hB
  refine ⟨s', hrun, htr, ⟨⟨htr.faultFree, ?_⟩, hg, hh.isOpen, ?_⟩, hb⟩
  · rw [if_neg (by omega)]; exact htr
  · unfold SingleBufferRamFileSystem.memoryPoolSize at *
    rw [hpool]; exact hsize.trans h.capacity

/-! ## Chunks that begin on a page boundary -/

/-- Behind `Q` bytes of `content`: they are in place, and no block behind the last erased one is touched. -/
structure InPlace (g : FlashMemoryGeometry) (base : Nat) (content : List UInt8) (m : Nat → UInt8) (last Q : Nat) : Prop where
  image : readMem m (base + 4) Q = content.take Q
  lastErased : 0 < Q → last * g.eraseBlockSize ≤ base + 4 + Q ∧ base + 4 + Q ≤ (last + 1) * g.eraseBlockSize

theorem InPlace.erase {content : List UInt8} {m m' : Nat → UInt8} {last Q : Nat} {fresh : Bool}
    (h : InPlace g base content m last Q) (hfresh : fresh = true → Q = 0)
    (he : ErasedFrom g m m' last (g.convertAddressIntoEraseBlockOffset (base + written Q)) fresh) :
    InPlace g base content m' (g.convertAddressIntoEraseBlockOffset (base + written Q)) Q := by
  have hlo := Nat.div_mul_le_self (base + written Q) g.eraseBlockSize
  have hhi := Nat.lt_div_mul_add (a := base + written Q) g.eraseBlockSize_pos
  have hsucc : ((base + written Q) / g.eraseBlockSize + 1) * g.eraseBlockSize = _ := Nat.succ_mul _ _
  unfold FlashMemoryGeometry.convertAddressIntoEraseBlockOffset at *
  generalize hblock : (base + written Q) / g.eraseBlockSize = block at *
  refine ⟨?_, fun hQ => by rw [written_of_pos hQ] at hlo hhi; omega⟩
  by_cases hQ : Q = 0
  · subst hQ; rfl
  have hb := h.lastErased (by omega)
  rw [written_of_pos (by omega)] at hlo hhi hblock
  rw [← h.image]
  refine readMem_congr fun a _ ha => ?_
  by_cases hl : last = block
  · rw [he.same (by cases fresh <;> simp_all) hl]
  · -- a new block begins where the flushed bytes end
    have hle : last ≤ block := by
      rw [← hblock]
      exact (Nat.le_div_iff_mul_le g.eraseBlockSize_pos).mpr (by omega)
    have hmul : (last + 1) * g.eraseBlockSize ≤ block * g.eraseBlockSize := Nat.mul_le_mul_right _ (by omega)
    exact he.before a (by omega)

theorem InPlace.keeps (pre : List UInt8) (hpage : 4 < g.writeBlockSize) :
    Keeps g base pre.length chunk fun m last Q => InPlace g base (pre ++ chunk) m last Q ∧
      (Q = pre.length + chunk.length ∨ g.writeBlockSize ∣ base + written Q) where
  erase m m' last total fresh ht hfresh h he := ⟨h.1.erase hfresh he, h.2⟩
  write m total ht h := by
    obtain ⟨h, hal⟩ := h
    have hal := hal.resolve_left (by omega)
    generalize hQ : pre.length + total = Q at *
    have hr := room_pos hpage Q
    have hh := headerRoom_le Q
    have hwh := written_add_headerRoom Q
    have hrest : (pre ++ chunk).drop Q = chunk.drop total := by rw [← hQ, List.drop_append]; simp
    have hprefix := List.prefix_iff_eq_take.mp (List.take_prefix (room g Q) (chunk.drop total))
    have hlen : (taken g Q total chunk).length = min (room g Q) (chunk.length - total) := by
      rw [taken, List.length_take, List.length_drop]
    change taken g Q total chunk = (chunk.drop total).take (taken g Q total chunk).length at hprefix
    generalize taken g Q total chunk = data at *
    have hpos : 0 < data.length := by omega
    have htarget : target g base Q = base + 4 + Q := by
      rw [target, g.pageStart_of_dvd hal]; omega
    have hsum : pre.length + (total + data.length) = Q + data.length := by omega
    rw [hsum, htarget]
    refine ⟨⟨?_, fun _ => ?_⟩, ?_⟩
    · rw [readMem_overlay_append, h.image, List.take_add, hrest, ← hprefix]
    · have hlo := Nat.div_mul_le_self (base + written Q) g.eraseBlockSize
      have hhi := g.page_le_eraseBlock hal
      unfold room FlashMemoryGeometry.convertAddressIntoEraseBlockOffset at *
      omega
    · by_cases hfull : data.length = room g Q
      · refine Or.inr ?_
        have hnext : base + written (Q + data.length) = base + written Q + g.writeBlockSize := by
          rw [written_add hpos, hfull]; unfold room; omega
        rw [hnext]
        exact Nat.dvd_add hal (Nat.dvd_refl _)
      · exact Or.inl (by omega)

/-! ## A marked byte -/

/-- Where the chunk that begins with the one byte `v` does not begin on a page boundary, no
    round stores `v` at the place it belongs to. -/
theorem unmarked_keeps {pre rest : List UInt8} {v : UInt8} {q : Nat} (hv : v ≠ 0xFF)
    (hmark : ∀ j, (pre ++ chunk ++ rest)[j]? = some v → j = q) (hq : 0 < q)
    (hoff : ¬ g.writeBlockSize ∣ base + 4 + q) (hcut : q ≤ pre.length ∨ pre.length + chunk.length ≤ q) :
    Keeps g base pre.length chunk fun m _ _ => m (base + 4 + q) ≠ v where
  erase m m' last total fresh ht hfresh h he := by
    rcases he.bytes (base + 4 + q) with hb | hb
    · rw [hb]; exact h
    · rw [hb]; exact hv.symm
  write m total ht h := by
    rcases overlay_cases m (target g base (pre.length + total)) (base + 4 + q)
      (taken g (pre.length + total) total chunk) with hb | ⟨k, hk, hA, hb⟩
    · rw [hb]; exact h
    · rw [hb]
      intro hv'
      have hlen : total + k < chunk.length := by
        simp only [taken, List.length_take, List.length_drop] at hk; omega
      have hchunk : chunk[total + k] = v := by
        simpa only [taken, List.getElem_take, List.getElem_drop] using hv'
      have hj := hmark (pre.length + (total + k)) (by
        rw [List.getElem?_append_left (by simp; omega), List.getElem?_append_right (by omega)]
        simp [hlen, hchunk])
      -- the marked byte is the first of its chunk, so its round begins at the start of the page
      have h0 : pre.length + total = q ∧ k = 0 := by omega
      rw [h0.1, h0.2, Nat.add_zero, target, headerRoom, if_neg (by omega), Nat.add_zero, written_of_pos hq,
        ← Nat.add_assoc] at hA
      exact hoff (hA ▸ g.dvd_pageStart _)

end

/-! ## Runs of calls -/

section
variable {memoryPartitionTable : File → Option Nat} {file : File} {g : FlashMemoryGeometry} {base capacity : Nat}

/-- What every call that is not the last keeps, holds behind any number of them. -/
theorem flushChunks_run {P : List UInt8 → Flusher → Prop} {chunks : List (List UInt8)}
    (hcall : ∀ pre chunk post s, pre ++ chunk :: post = chunks → P pre.flatten s →
      ∃ s', onFileBufferingFinished saluteFlashMemoryTransferImplementor memoryPartitionTable (s.bufferChunk file chunk) file
        false = some s' ∧ P (pre.flatten ++ chunk) s') {s : Flusher} (h : P [] s) :
    ∃ s', flushChunks memoryPartitionTable file s (chunks.map (·, false)) = some s' ∧ P chunks.flatten s' := by
  suffices hrun : ∀ post pre s, pre ++ post = chunks → P pre.flatten s →
      ∃ s', flushChunks memoryPartitionTable file s (post.map (·, false)) = some s' ∧ P chunks.flatten s' from
    hrun chunks [] s rfl h
  intro post
  induction post with
  | nil =>
    intro pre s he hp
    rw [List.append_nil] at he
    exact ⟨s, rfl, he ▸ hp⟩
  | cons chunk post ih =>
    intro pre s he hp
    obtain ⟨s1, hc, hp1⟩ := hcall pre chunk post s he hp
    obtain ⟨s2, hr, hp2⟩ := ih (pre ++ [chunk]) s1 (by simpa using he) (by simpa using hp1)
    exact ⟨s2, by simp only [List.map_cons, flushChunks, hc, Option.bind_some, hr], hp2⟩

/-- Chunks the buffer takes, of a file that fits behind the header. -/
structure Cuts (g : FlashMemoryGeometry) (base capacity : Nat) (chunks : List (List UInt8)) : Prop where
  chunk : ∀ c ∈ chunks, 0 < c.length ∧ c.length ≤ capacity
  fits : base + 4 + chunks.flatten.length ≤ g.size

theorem Cuts.at {chunks pre post : List (List UInt8)} {chunk : List UInt8} (h : Cuts g base capacity chunks)
    (he : pre ++ chunk :: post = chunks) : 0 < chunk.length ∧ chunk.length ≤ capacity ∧
      base + 4 + pre.flatten.length + chunk.length ≤ g.size := by
  subst he
  have hc := h.chunk chunk (by simp)
  have hf := h.fits
  simp only [List.flatten_append, List.flatten_cons, List.length_append] at hf
  exact ⟨hc.1, hc.2, by omega⟩

theorem Cuts.of_append {chunks rest : List (List UInt8)} (h : Cuts g base capacity (chunks ++ rest)) :
    Cuts g base capacity chunks := by
  refine ⟨fun c hc => h.chunk c (List.mem_append_left _ hc), ?_⟩
  have := h.fits
  rw [List.flatten_append, List.length_append] at this
  omega

/-- A property of the bytes handed over, the memory, the block erased last and the number of
    bytes taken, that the rounds of every chunk keep and that goes over to the next chunk. -/
structure Carries (g : FlashMemoryGeometry) (base : Nat) (chunks : List (List UInt8))
    (B : List UInt8 → (Nat → UInt8) → Nat → Nat → Prop) : Prop where
  keeps : ∀ pre chunk post, pre ++ chunk :: post = chunks → Keeps g base pre.flatten.length chunk (B (pre.flatten ++ chunk))
  next : ∀ pre chunk post m last, pre ++ chunk :: post = chunks →
    B pre.flatten m last pre.flatten.length → B (pre.flatten ++ chunk) m last pre.flatten.length

variable {B : List UInt8 → (Nat → UInt8) → Nat → Nat → Prop} {s : Flusher} {chunks rest : List (List UInt8)}

theorem Carries.of_append (h : Carries g base (chunks ++ rest) B) : Carries g base chunks B where
  keeps pre chunk post he := h.keeps pre chunk (post ++ rest) (by rw [← he]; simp)
  next pre chunk post m last he := h.next pre chunk (post ++ rest) m last (by rw [← he]; simp)

/-- What is carried holds behind every chunk that is not the last. -/
theorem flushChunks_spec (hs : Between memoryPartitionTable file g base capacity 0 s)
    (hcuts : Cuts g base capacity chunks) (hbase : g.eraseBlockSize ∣ base) (hpage : 4 < g.writeBlockSize)
    (hcarries : Carries g base chunks B) (hB : B [] s.flashMemory.bytes s.flushingState.lastErasedBlockOffset 0) :
    ∃ s', flushChunks memoryPartitionTable file s (chunks.map (·, false)) = some s' ∧
      Between memoryPartitionTable file g base capacity chunks.flatten.length s' ∧
      B chunks.flatten s'.flashMemory.bytes s'.flushingState.lastErasedBlockOffset chunks.flatten.length := by
  refine flushChunks_run (P := fun pre s' => Between memoryPartitionTable file g base capacity pre.length s' ∧
    B pre s'.flashMemory.bytes s'.flushingState.lastErasedBlockOffset pre.length) ?_ ⟨hs, hB⟩
  intro pre chunk post s1 he ⟨hs1, hb⟩
  obtain ⟨hne, hcap, hfit⟩ := hcuts.at he
  obtain ⟨s2, hcall, _, hs2, hb2⟩ := hs1.call hne hcap hfit hbase hpage (hcarries.keeps pre chunk post he)
    (hcarries.next pre chunk post _ _ he hb) false
  rw [← List.length_append] at hs2 hb2
  exact ⟨s2, hcall.trans (finish_of_not_last s2 file), hs2, hb2⟩

/-- What is carried holds behind the last chunk, before the header is stored. -/
theorem flushChunks_last (lastChunk : List UInt8) (hs : Between memoryPartitionTable file g base capacity 0 s)
    (hcuts : Cuts g base capacity (chunks ++ [lastChunk])) (hbase : g.eraseBlockSize ∣ base) (hpage : 4 < g.writeBlockSize)
    (hcarries : Carries g base (chunks ++ [lastChunk]) B)
    (hB : B [] s.flashMemory.bytes s.flushingState.lastErasedBlockOffset 0) :
    ∃ s' m last, flushChunks memoryPartitionTable file s (chunks.map (·, false) ++ [(lastChunk, true)]) = some s' ∧
      B (chunks.flatten ++ lastChunk) m last (chunks.flatten ++ lastChunk).length ∧
      s'.flashMemory.bytes = overlay m base (lengthHeader (base + (chunks.flatten ++ lastChunk).length)) := by
  obtain ⟨s1, hrun, hs1, hb1⟩ := flushChunks_spec hs hcuts.of_append hbase hpage hcarries.of_append hB
  obtain ⟨hne, hcap, hfit⟩ := hcuts.at rfl
  obtain ⟨s2, hcall, htr, hs2, hb2⟩ := hs1.call hne hcap hfit hbase hpage (hcarries.keeps chunks lastChunk [] rfl)
    (hcarries.next chunks lastChunk [] _ _ rfl hb1) true
  rw [← List.length_append] at htr hs2 hb2
  have hpos : 0 < (chunks.flatten ++ lastChunk).length := by rw [List.length_append]; omega
  obtain ⟨s3, hfin, hbytes⟩ := finish_of_last file htr hs2.geometry hpos (by rw [List.length_append]; omega)
    (g.dvd_of_erase_dvd hbase) hpage
  refine ⟨s3, s2.flashMemory.bytes, s2.flushingState.lastErasedBlockOffset, ?_, hb2, hbytes⟩
  rw [flushChunks_append, hrun]
  simp only [Option.bind_some, flushChunks, hcall, hfin]

/-! ## The image -/

def Aligned (g : FlashMemoryGeometry) (base : Nat) (chunks : List (List UInt8)) : Prop :=
  ∀ pre chunk post, pre ++ chunk :: post = chunks → g.writeBlockSize ∣ base + written pre.flatten.length

theorem Aligned.carries (h : Aligned g base chunks) (hpage : 4 < g.writeBlockSize) :
    Carries g base chunks fun content m last Q => InPlace g base content m last Q ∧
      (Q = content.length ∨ g.writeBlockSize ∣ base + written Q) where
  keeps pre chunk post _ := by
    simpa only [List.length_append] using InPlace.keeps pre.flatten hpage
  next pre chunk post m last he hb := by
    refine ⟨⟨?_, hb.1.lastErased⟩, Or.inr (h pre chunk post he)⟩
    rw [hb.1.image, List.take_append_of_le_length (Nat.le_refl _)]

theorem inPlace_nil (m : Nat → UInt8) (last : Nat) : InPlace g base [] m last 0 := ⟨rfl, nofun⟩

/-- Chunks that begin on page boundaries are flushed to their places. -/
theorem readMem_of_aligned (hs : Between memoryPartitionTable file g base capacity 0 s)
    (hcuts : Cuts g base capacity chunks) (hbase : g.eraseBlockSize ∣ base) (hpage : 4 < g.writeBlockSize)
    (hal : Aligned g base chunks) :
    ∃ s', flushChunks memoryPartitionTable file s (chunks.map (·, false)) = some s' ∧
      readMem s'.flashMemory.bytes (base + 4) chunks.flatten.length = chunks.flatten := by
  obtain ⟨s', hrun, _, hb, _⟩ := flushChunks_spec hs hcuts hbase hpage (hal.carries hpage) ⟨inPlace_nil _ _, Or.inl rfl⟩
  exact ⟨s', hrun, by rw [hb.image, List.take_length]⟩

/-- A file at address zero whose chunks begin on page boundaries has a correct image. -/
theorem flashImageCorrect_of_aligned {lastChunk : List UInt8} (hs : Between memoryPartitionTable file g 0 capacity 0 s)
    (hcuts : Cuts g 0 capacity (chunks ++ [lastChunk])) (hpage : 4 < g.writeBlockSize)
    (hal : Aligned g 0 (chunks ++ [lastChunk])) : FlashImageCorrect memoryPartitionTable file 0 s chunks lastChunk := by
  constructor
  · intro k _
    have hsplit : chunks ++ [lastChunk] = chunks.take k ++ (chunks.drop k ++ [lastChunk]) := by
      rw [← List.append_assoc, List.take_append_drop]
    refine readMem_of_aligned hs ?_ (Nat.dvd_zero _) hpage ?_
    · rw [hsplit] at hcuts; exact hcuts.of_append
    · intro pre chunk post he
      exact hal pre chunk (post ++ (chunks.drop k ++ [lastChunk])) (by
        rw [hsplit, ← he]; simp only [List.append_assoc, List.cons_append])
  · obtain ⟨s', m, last, hrun, ⟨hb, _⟩, hbytes⟩ := flushChunks_last lastChunk hs hcuts (Nat.dvd_zero _) hpage
      (hal.carries hpage) ⟨inPlace_nil _ _, Or.inl rfl⟩
    refine ⟨s', hrun, ?_, ?_⟩
    · have hm := hb.image
      rw [List.take_length] at hm
      conv => rhs; rw [← hm]
      rw [hbytes]
      exact readMem_congr fun i hi _ => overlay_behind (by rw [length_lengthHeader]; exact hi)
    · rw [hbytes, Nat.zero_add]
      exact readMem_overlay_self m 0 (lengthHeader _)

theorem length_flatten_of_split {chunks pre post : List (List UInt8)} {chunk : List UInt8} {lengths : List Nat}
    (hmap : chunks.map List.length = lengths) (he : pre ++ chunk :: post = chunks) :
    pre.flatten.length = (lengths.take pre.length).sum ∧
      pre.flatten.length + chunk.length = (lengths.take (pre.length + 1)).sum := by
  subst hmap he
  simp [List.length_flatten, List.take_append, List.take_of_length_le]

theorem sum_take_le (l : List Nat) {i j : Nat} (h : i ≤ j) : (l.take i).sum ≤ (l.take j).sum := by
  obtain ⟨d, rfl⟩ := Nat.exists_eq_add_of_le h
  rw [List.take_add, List.sum_append]
  omega

theorem aligned_of_lengths {lengths : List Nat} {lastChunk : List UInt8} (hmap : chunks.map List.length = lengths)
    (h : ∀ k, 0 < k → k ≤ lengths.length → g.writeBlockSize ∣ 4 + (lengths.take k).sum) :
    Aligned g 0 (chunks ++ [lastChunk]) := by
  intro pre chunk post he
  have hlen : pre.length ≤ lengths.length := by
    have := congrArg List.length he
    rw [← hmap]
    simp only [List.length_append, List.length_cons, List.length_nil, List.length_map] at *
    omega
  have hall : (chunks ++ [lastChunk]).map List.length = lengths ++ [lastChunk.length] := by simp [hmap]
  have hq := (length_flatten_of_split hall he).1
  rw [List.take_append_of_le_length hlen] at hq
  rw [Nat.zero_add]
  by_cases hpos : 0 < pre.flatten.length
  · rw [written_of_pos hpos, hq]
    refine h _ (Nat.pos_of_ne_zero fun h0 => ?_) hlen
    rw [h0, List.take_zero, List.sum_nil] at hq
    omega
  · rw [Nat.eq_zero_of_not_pos hpos]
    exact Nat.dvd_zero _

theorem cuts_of_lengths {lengths : List Nat} {lastChunk : List UInt8} (hmap : chunks.map List.length = lengths)
    (hlen : ∀ n ∈ lengths ++ [lastChunk.length], 0 < n ∧ n ≤ capacity)
    (hfit : base + 4 + (lengths.sum + lastChunk.length) ≤ g.size) : Cuts g base capacity (chunks ++ [lastChunk]) := by
  subst hmap
  refine ⟨fun c hc => hlen _ ?_, by simpa [List.length_flatten] using hfit⟩
  have := List.mem_map_of_mem (f := List.length) hc
  simpa using this

/-- The length in the header counts from address zero. -/
theorem base_eq_zero_of_correct {lastChunk : List UInt8} (hs : Between memoryPartitionTable file g base capacity 0 s)
    (hcuts : Cuts g base capacity (chunks ++ [lastChunk])) (hbase : g.eraseBlockSize ∣ base) (hpage : 4 < g.writeBlockSize)
    (h : FlashImageCorrect memoryPartitionTable file base s chunks lastChunk) : base = 0 := by
  obtain ⟨s', m, last, hrun, _, hbytes⟩ := flushChunks_last (B := fun _ _ _ _ => True) lastChunk hs hcuts hbase hpage
    ⟨fun _ _ _ _ => ⟨fun _ _ _ _ _ _ _ _ _ => trivial, fun _ _ _ _ => trivial⟩, fun _ _ _ _ _ _ _ => trivial⟩ trivial
  obtain ⟨_, s'', hrun', _, hheader⟩ := h
  obtain rfl : s' = s'' := Option.some_inj.mp (hrun.symm.trans hrun')
  have hfits := hcuts.fits
  have hsize := g.addressable
  unfold FlashMemoryGeometry.size at hfits
  rw [List.flatten_append, List.flatten_singleton] at hfits
  generalize (chunks.flatten ++ lastChunk).length = n at *
  rw [hbytes] at hheader
  have := lengthHeader_inj (by omega) (by omega) ((readMem_overlay_self m base (lengthHeader (base + n))).symm.trans hheader)
  omega

/-- A byte behind a chunk boundary inside a page, the only one of its value, is lost. -/
theorem not_correct_of_marked {lastChunk : List UInt8} {v : UInt8} {q : Nat}
    (hs : Between memoryPartitionTable file g base capacity 0 s) (hcuts : Cuts g base capacity (chunks ++ [lastChunk]))
    (hbase : g.eraseBlockSize ∣ base) (hpage : 4 < g.writeBlockSize) (hv : v ≠ 0xFF)
    (hold : s.flashMemory.bytes (base + 4 + q) ≠ v) (hmarked : (chunks.flatten ++ lastChunk)[q]? = some v)
    (hmark : ∀ j, (chunks.flatten ++ lastChunk)[j]? = some v → j = q) (hq : 0 < q)
    (hoff : ¬ g.writeBlockSize ∣ base + 4 + q)
    (hcut : ∀ pre chunk post, pre ++ chunk :: post = chunks ++ [lastChunk] →
      q ≤ pre.flatten.length ∨ pre.flatten.length + chunk.length ≤ q) :
    ¬ FlashImageCorrect memoryPartitionTable file base s chunks lastChunk := by
  intro h
  have hcarries : Carries g base (chunks ++ [lastChunk]) fun _ m _ _ => m (base + 4 + q) ≠ v := by
    refine ⟨fun pre chunk post he => ?_, fun _ _ _ _ _ _ hb => hb⟩
    have hjoin : pre.flatten ++ chunk ++ post.flatten = chunks.flatten ++ lastChunk := by
      have := congrArg List.flatten he
      simpa [List.append_assoc] using this
    exact unmarked_keeps hv (hjoin ▸ hmark) hq hoff (hcut pre chunk post he)
  obtain ⟨s', m, last, hrun, hb, hbytes⟩ := flushChunks_last lastChunk hs hcuts hbase hpage hcarries hold
  obtain ⟨_, s'', hrun', himage, _⟩ := h
  obtain rfl : s' = s'' := Option.some_inj.mp (hrun.symm.trans hrun')
  obtain ⟨hlt, _⟩ := List.getElem?_eq_some_iff.mp hmarked
  rw [← himage, getElem?_readMem hlt, hbytes, overlay_behind (by rw [length_lengthHeader]; omega)] at hmarked
  exact hb (Option.some_inj.mp hmarked)

/-- A byte value that is neither that of an erased cell, nor zero, nor the given one. -/
theorem exists_marker (b : UInt8) : ∃ v : UInt8, v ≠ 0xFF ∧ v ≠ 0 ∧ b ≠ v := by
  by_cases h : b = 1
  · exact ⟨2, by decide, by decide, by rw [h]; decide⟩
  · exact ⟨1, by decide, by decide, h⟩

theorem sum_take_pos {lengths : List Nat} (hlen : ∀ n ∈ lengths, 0 < n) {k : Nat} (hk : 0 < k) (hkl : k ≤ lengths.length) :
    0 < (lengths.take k).sum := by
  cases lengths with
  | nil => simp only [List.length_nil] at hkl; omega
  | cons n lengths =>
    have hn := hlen n (List.mem_cons_self ..)
    obtain ⟨k, rfl⟩ := Nat.exists_eq_add_of_le' hk
    rw [List.take_succ_cons, List.sum_cons]
    omega

/-- **Image of a file flushed in chunks.** With these chunk lengths, the image of every
    content is correct exactly when the file starts at address zero and every chunk but
    the last ends, counted from the header, on a page boundary. -/
theorem flash_image_correct_iff {lengths : List Nat} {lastLength : Nat}
    (hs : Between memoryPartitionTable file g base capacity 0 s) (hpage : 4 < g.writeBlockSize)
    (hbase : g.eraseBlockSize ∣ base) (hlen : ∀ n ∈ lengths ++ [lastLength], 0 < n ∧ n ≤ capacity)
    (hfit : base + 4 + (lengths.sum + lastLength) ≤ g.size) :
    (∀ chunks lastChunk, chunks.map List.length = lengths → lastChunk.length = lastLength →
      FlashImageCorrect memoryPartitionTable file base s chunks lastChunk) ↔
    base = 0 ∧ ∀ k, 0 < k → k ≤ lengths.length → g.writeBlockSize ∣ 4 + (lengths.take k).sum := by
  constructor
  · intro h
    have htotal : (List.replicate (lengths.sum + lastLength) (0 : UInt8)).length = lengths.sum + lastLength := by simp
    have hmaps : ∀ content : List UInt8, content.length = lengths.sum + lastLength →
        (lengths.splitLengths (content.take lengths.sum)).map List.length = lengths := fun content hc =>
      List.map_splitLengths_length _ _ (by rw [List.length_take]; omega)
    have hlasts : ∀ content : List UInt8, content.length = lengths.sum + lastLength →
        (content.drop lengths.sum).length = lastLength := fun content hc => by rw [List.length_drop]; omega
    refine ⟨?_, fun k hk hkl => ?_⟩
    · have hm := hmaps _ htotal
      have hl := hlasts _ htotal
      exact base_eq_zero_of_correct hs (cuts_of_lengths hm (by rw [hl]; exact hlen) (by rw [hl]; exact hfit)) hbase hpage
        (h _ _ hm hl)
    · -- zeros, but for one byte where the chunk that begins inside a page begins
      refine Decidable.by_contra fun hoff => ?_
      have hq := sum_take_pos (fun n hn => (hlen n (List.mem_append_left _ hn)).1) hk hkl
      have hqle := sum_take_le lengths hkl
      rw [List.take_length] at hqle
      have hall : ((lengths ++ [lastLength]).take k).sum = (lengths.take k).sum := by
        rw [List.take_append_of_le_length hkl]
      generalize (lengths.take k).sum = q at *
      have hlast := (hlen lastLength (by simp)).1
      obtain ⟨v, hv, hv0, hold⟩ := exists_marker (s.flashMemory.bytes (base + 4 + q))
      have hc : ((List.replicate (lengths.sum + lastLength) (0 : UInt8)).set q v).length = lengths.sum + lastLength := by
        simp
      have hmarked : ((List.replicate (lengths.sum + lastLength) (0 : UInt8)).set q v)[q]? = some v := by
        rw [List.getElem?_set_self (by simp; omega)]
      have hmark : ∀ j, ((List.replicate (lengths.sum + lastLength) (0 : UInt8)).set q v)[j]? = some v → j = q := by
        intro j hj
        refine Decidable.by_contra fun hne => ?_
        rw [List.getElem?_set_ne (Ne.symm hne)] at hj
        obtain ⟨_, hj⟩ := List.getElem?_eq_some_iff.mp hj
        rw [List.getElem_replicate] at hj
        exact hv0 hj.symm
      generalize (List.replicate (lengths.sum + lastLength) (0 : UInt8)).set q v = content at *
      have hm := hmaps content hc
      have hl := hlasts content hc
      have hjoin : (lengths.splitLengths (content.take lengths.sum)).flatten ++ content.drop lengths.sum = content := by
        rw [List.flatten_splitLengths _ _ (by rw [List.length_take]; omega), List.take_append_drop]
      refine not_correct_of_marked hs (cuts_of_lengths hm (by rw [hl]; exact hlen) (by rw [hl]; exact hfit)) hbase hpage hv
        hold (hjoin.symm ▸ hmarked) (hjoin.symm ▸ hmark) hq ?_ ?_ (h _ _ hm hl)
      · rw [Nat.add_assoc]
        exact fun hd => hoff ((Nat.dvd_add_right (g.dvd_of_erase_dvd hbase)).mp hd)
      · intro pre chunk post he
        have hlengths : (lengths.splitLengths (content.take lengths.sum) ++ [content.drop lengths.sum]).map List.length =
            lengths ++ [lastLength] := by rw [List.map_append, hm, List.map_singleton, hl]
        obtain ⟨hpre, hchunk⟩ := length_flatten_of_split hlengths he
        rw [hpre, ← hall] at *
        rcases Nat.lt_or_ge pre.length k with hlt | hge
        · exact Or.inr (hchunk ▸ sum_take_le _ hlt)
        · exact Or.inl (sum_take_le _ hge)
  · intro h chunks lastChunk hmap h'
    rcases h with ⟨rfl, hal⟩
    rcases h' with rfl
    exact flashImageCorrect_of_aligned hs (cuts_of_lengths hmap hlen hfit) hpage (aligned_of_lengths hmap hal)

end

/-! ## A small flash -/

/-- Four erase blocks of two pages of eight bytes, erased; a buffer of sixteen bytes. -/
def smallFlusher : Flusher where
  flashMemory :=
    { geometry := ⟨8, 16, 4, by decide, by decide, by decide, by decide, by decide⟩
      bytes := fun _ => 0xFF
      faults := fun _ => false
      trace := [] }
  flushingState := {}
  fs := ⟨1, List.replicate 16 0, 0, 0⟩

/-- The file `show` in the buffer. -/
def showFile : File := File.new ⟨1⟩ [0x73, 0x68, 0x6F, 0x77]

theorem smallFlusher_between :
    Between saluteFlashMemoryPartitionTable showFile smallFlusher.geometry 0 16 0 smallFlusher :=
  ⟨⟨fun _ => rfl, rfl, if_pos rfl⟩, rfl, ⟨rfl, rfl, by decide⟩, rfl⟩

/-- Four bytes fill the first page behind the header: the byte that follows is in place. -/
theorem flash_image_correct_of_four_and_one :
    FlashImageCorrect saluteFlashMemoryPartitionTable showFile 0 smallFlusher [[1, 2, 3, 4]] [5] := by
  refine (@flash_image_correct_iff _ _ _ _ _ _ [4] 1 smallFlusher_between (by decide) (by decide) (by decide)
    (by decide)).mpr ⟨rfl, ?_⟩ [[1, 2, 3, 4]] [5] rfl rfl
  intro k h0 h1
  obtain rfl : k = 1 := Nat.le_antisymm h1 h0
  decide

/-- Six bytes end inside the second page: the seventh is stored over the fifth. -/
theorem a_chunk_begun_inside_a_page_is_stored_over_the_one_before :
    ¬ FlashImageCorrect saluteFlashMemoryPartitionTable showFile 0 smallFlusher [[1, 2, 3, 4, 5, 6]] [7] := by
  intro h
  rcases h with ⟨_, s', hrun, himage, _⟩
  have hbytes : (flushChunks saluteFlashMemoryPartitionTable showFile smallFlusher [([1, 2, 3, 4, 5, 6], false), ([7], true)]).map
      (fun s => readMem s.flashMemory.bytes 4 7) = some [1, 2, 3, 4, 7, 6, 0xFF] := by decide +kernel
  have hrun' : flushChunks saluteFlashMemoryPartitionTable showFile smallFlusher
      [([1, 2, 3, 4, 5, 6], false), ([7], true)] = some s' := hrun
  rw [hrun', Option.map_some, Option.some_inj] at hbytes
  exact absurd (hbytes.symm.trans himage) (by decide)

end Esp32Cam.Bft.Flusher
