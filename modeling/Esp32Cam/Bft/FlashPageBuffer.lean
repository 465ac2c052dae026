/-
  Esp32Cam.Bft.FlashPageBuffer — the indices of the page buffer.

  `roundAccesses` are the ranges of the page buffer that a round of the write loop
  touches: where the bytes of the file are put, behind the inner offset of the base
  address or the header, and what the checksum is taken of, behind the inner offset of
  the write address. `verifyingReads` are the reads after the last chunk.

  A call stays in bounds (`InBounds`) exactly when each piece of the chunk that is reached
  lies in one page, and the file that is verified begins on a page boundary or lies in one
  page (`page_buffer_bounds_iff`). From a base on a page boundary the pieces of a chunk do
  when it begins on a page boundary or ends in the page it begins in
  (`pieces_fit_iff_of_aligned`).
-/

import Esp32Cam.Lib.PartialRun
import Esp32Cam.Bft.FlashPlan

namespace Esp32Cam.Bft.Flusher

open Esp32Cam.Lib Esp32Cam.Lib.PartialRun Esp32Cam.Ut Esp32Cam.Sys

/-! ## What is touched -/

/-- `length` indices of the page buffer, from `first` on. -/
structure Access where
  first : Nat
  length : Nat
  deriving DecidableEq, Repr

def Access.InBuffer (g : FlashMemoryGeometry) (a : Access) : Prop := ∀ i < a.length, a.first + i < g.writeBlockSize

/-- The file is read behind the inner offset of the layout, and the checksum behind that of the write address. -/
def roundAccesses (k : Kind) (s : Flusher) (file : File) (isLastChunk : Bool) : List Access :=
  match s.tryReadCurrentFlashMemoryPageContent with
  | (_, none) => []
  | (s, some pageBuffer) =>
    let (_, _, nBytesWrittenIntoPage, nProcessed) :=
      k.implementor.formatFlashMemoryPageContent s pageBuffer file isLastChunk
    let l := k.layout s.geometry s.flushingState.baseFlashMemoryAddress s.flushingState.flashMemoryAddress
    let pageBufferInnerOffset :=
      s.geometry.convertAddressIntoWriteBlockInnerOffset s.flushingState.flashMemoryAddress
    [⟨l.pageBufferInnerOffset, nProcessed⟩, ⟨pageBufferInnerOffset, nBytesWrittenIntoPage⟩]

def loopAccesses (k : Kind) (file : File) (bufferSize : Nat) (isLastChunk : Bool) : Nat → Flusher → Nat → List Access
  | 0, _, _ => []
  | fuel + 1, s, nProcessedTotal =>
    if nProcessedTotal = bufferSize then []
    else
      let s := s.preErase
      if nProcessedTotal > bufferSize then []
      else roundAccesses k s file isLastChunk ++ match writePage k.implementor s file isLastChunk with
        | .next s nProcessed => loopAccesses k file bufferSize isLastChunk fuel s (nProcessedTotal + nProcessed)
        | _ => []

/-- The operations of `updateFlashMemoryCrc32`, where it is called. -/
def verifyingReads (k : Kind) (s : Flusher) (c : Call) : List FlashOp :=
  match writeChunk k s c with
  | .next s true => s.updateFlashMemoryCrc32.flashMemory.since s.flashMemory.trace.length
  | _ => []

/-- What is asked of a call, from where its loop is entered on. -/
structure InBounds (k : Kind) (memoryPartitionTable : File → Option Nat) (s : Flusher) (c : Call) : Prop where
  pageBuffer : ∀ s', enter memoryPartitionTable s c = some s' →
    ∀ a ∈ loopAccesses k c.file c.chunk.length c.isLastChunk (c.chunk.length + 1) s' 0, a.InBuffer s.geometry
  readBlock : ∀ s', enter memoryPartitionTable s c = some s' →
    ∀ id offset length, .read id offset length ∈ verifyingReads k s' c → offset + length ≤ s.geometry.writeBlockSize

/-! ## The pieces that are reached -/

section
variable (g : FlashMemoryGeometry)

/-- The pieces whose pages can be read, up to the first page that fails. -/
def reached (d : FlashMemory) : Nat → Option Nat → List Piece → List Piece
  | _, _, [] => []
  | n, last, p :: ps =>
    let n := n + (eraseOps g last p.address).length
    if Stops d n (p.readOp g) then []
    else p :: if Stops d (n + 1) (p.writeOp g) then [] else
      reached d (n + 2) (some (g.convertAddressIntoEraseBlockOffset p.address)) ps

def Piece.Fits (p : Piece) : Prop :=
  p.length = 0 ∨ p.pageBufferInnerOffset + p.length ≤ g.writeBlockSize ∧
    g.convertAddressIntoWriteBlockInnerOffset p.address + p.written ≤ g.writeBlockSize

def Piece.accesses (p : Piece) : List Access :=
  [⟨p.pageBufferInnerOffset, p.length⟩, ⟨g.convertAddressIntoWriteBlockInnerOffset p.address, p.written⟩]

end

theorem Access.inBuffer_iff {g : FlashMemoryGeometry} {a : Access} :
    a.InBuffer g ↔ a.length = 0 ∨ a.first + a.length ≤ g.writeBlockSize := by
  constructor
  · intro h
    by_cases hzero : a.length = 0
    · exact Or.inl hzero
    · have hlast := h (a.length - 1) (by omega)
      exact Or.inr (by omega)
  · intro h i hi
    omega

theorem Piece.fits_iff {g : FlashMemoryGeometry} {p : Piece} : p.Fits g ↔ ∀ a ∈ p.accesses g, a.InBuffer g := by
  simp only [Piece.accesses, List.forall_mem_cons, Access.inBuffer_iff]
  unfold Piece.Fits Piece.written
  by_cases hzero : p.length = 0
  · simp [hzero]
  · simp [hzero]

section
variable {k : Kind} {s : Flusher} {file : File} {chunk : List UInt8} {total fuel : Nat}

theorem roundAccesses_eq (hf : Holds s.fs file chunk total) (hlt : total < chunk.length) (isLastChunk : Bool) :
    let p := nextPiece k s chunk total
    roundAccesses k s file isLastChunk =
      if Stops s.flashMemory s.flashMemory.trace.length (p.readOp s.geometry) then [] else p.accesses s.geometry := by
  intro p
  obtain ⟨d, hissued, ⟨hread, buffer, hlen, htry⟩ | ⟨hread, htry⟩⟩ := tryRead_carries_out s
  · have hgeometry : ({ s with flashMemory := d } : Flusher).geometry = s.geometry := hissued.geometry
    obtain ⟨buffer', fs', hformat, -, -⟩ := format_spec (k := k) (s := { s with flashMemory := d }) hf hlt
      (hlen.trans (congrArg FlashMemoryGeometry.writeBlockSize hgeometry).symm) isLastChunk
    have hp : nextPiece k { s with flashMemory := d } chunk total = p := by
      unfold nextPiece
      rw [hgeometry]
      rfl
    have hcontinue : ¬ Stops s.flashMemory s.flashMemory.trace.length (p.readOp s.geometry) := fun h => h hread
    rw [if_neg hcontinue]
    rw [hp] at hformat
    simp only [roundAccesses, htry, hformat, hgeometry]
    rfl
  · have hstops : Stops s.flashMemory s.flashMemory.trace.length (p.readOp s.geometry) := hread
    rw [if_pos hstops]
    simp only [roundAccesses, htry]

theorem loopAccesses_succ (isLastChunk : Bool) (hlt : total < chunk.length) :
    loopAccesses k file chunk.length isLastChunk (fuel + 1) s total =
      roundAccesses k s.preErase file isLastChunk ++ match writePage k.implementor s.preErase file isLastChunk with
        | .next s' nProcessed => loopAccesses k file chunk.length isLastChunk fuel s' (total + nProcessed)
        | _ => [] := by
  have hend : ¬ total = chunk.length := by omega
  have hgt : ¬ total > chunk.length := by omega
  simp only [loopAccesses, if_neg hend, if_neg hgt]

theorem reached_congr {d d' : FlashMemory} {ops : List FlashOp} (h : d.Issued d' ops) (g : FlashMemoryGeometry) (n : Nat)
    (last : Option Nat) (ps : List Piece) : reached g d' n last ps = reached g d n last ps := by
  induction ps generalizing n last with
  | nil => rfl
  | cons p ps ih => simp only [reached, stops_of_issued h, ih]

/-- The loop touches what the pieces reached take. -/
theorem loopAccesses_eq (hf : total < chunk.length → Holds s.fs file chunk total) (htotal : total ≤ chunk.length)
    (hongoing : s.flushingState.ongoing = true) (hfuel : chunk.length < fuel + total) (isLastChunk : Bool) :
    let f := s.flushingState
    loopAccesses k file chunk.length isLastChunk fuel s total =
      (reached s.geometry s.flashMemory s.flashMemory.trace.length (lastErased f)
        (k.pieces s.geometry f.baseFlashMemoryAddress f.flashMemoryAddress (chunk.length - total))).flatMap
        (Piece.accesses s.geometry) := by
  induction fuel generalizing s total with
  | zero => omega
  | succ fuel ih =>
    intro f
    by_cases hend : total = chunk.length
    · rw [hend, Nat.sub_self, Kind.pieces, if_pos rfl]
      exact if_pos rfl
    · have hlt : total < chunk.length := Nat.lt_of_le_of_ne htotal hend
      have herase := preErase_issued s
      have hfirst := roundAccesses_eq (k := k) (s := s.preErase) ((preErase_spec s).fs ▸ hf hlt) hlt isLastChunk
      dsimp only at hfirst
      rw [nextPiece_preErase, herase.length, (preErase_spec s).geometry] at hfirst
      simp only [stops_of_issued herase] at hfirst
      rw [loopAccesses_succ isLastChunk hlt, hfirst, pieces_next hlt, reached]
      have hround := round_carries_out (k := k) (hf hlt) hlt hongoing isLastChunk
      have haddress : (nextPiece k s chunk total).address = f.flashMemoryAddress := rfl
      dsimp only at hround ⊢
      rw [haddress]
      generalize nextPiece k s chunk total = p at *
      generalize hn : s.flashMemory.trace.length +
        (eraseOps s.geometry (lastErased f) f.flashMemoryAddress).length = n at hround ⊢
      rcases hround with ⟨hzero, hcontinue, hpanic⟩ |
          ⟨s', hissued, hongoing', hbase, ⟨hclear, hpos, hnext, hholds, haddress', hlast⟩ | ⟨hstopped, hreturned, -⟩⟩
      · -- the page has no room: the program panics
        rw [hpanic, if_neg hcontinue, if_neg hcontinue, if_pos hzero]
        simp [reached]
      · -- the round is over, and the rest of the chunk follows
        rw [Plan.issued_of_clear hclear] at hissued
        rw [Piece.ops, if_neg hpos.ne'] at hissued hclear
        have hlength : s'.flashMemory.trace.length = n + 2 := by
          rw [hissued.length, List.length_append, ← Nat.add_assoc, hn]
          rfl
        have hrest := ih (fun _ => hholds) hholds.inside hongoing' (by omega)
        dsimp only at hrest
        rw [show s'.geometry = s.geometry from hissued.geometry, reached_congr hissued, hlength, hbase, haddress', hlast]
          at hrest
        rw [hnext, if_neg hclear.1, if_neg hclear.1, if_neg hclear.2.1, if_neg hpos.ne', List.flatMap_cons]
        exact congrArg (p.accesses s.geometry ++ ·) hrest
      · -- a page cannot be read or written
        rw [hreturned]
        dsimp only
        by_cases hread : Stops s.flashMemory n (p.readOp s.geometry)
        · rw [if_pos hread, if_pos hread]
          rfl
        · rw [if_neg hread, if_neg hread]
          have hwrite : Stops s.flashMemory (n + 1) (p.writeOp s.geometry) := by
            refine Decidable.by_contra fun hwrite => hstopped ?_
            rw [Piece.ops]
            split
            · exact ⟨hread, trivial⟩
            · exact ⟨hread, hwrite, trivial⟩
          rw [if_pos hwrite]
          simp

end

/-! ## From a base on a page boundary -/

section
variable {k : Kind} {g : FlashMemoryGeometry} {base address n : Nat}

theorem piece_fits_iff (hbase : g.writeBlockSize ∣ base) (hheader : k.nHeader ≤ g.writeBlockSize) :
    (k.piece g base address n).Fits g ↔ min (g.writeBlockSize - k.headerAt base address) n = 0 ∨
      g.convertAddressIntoWriteBlockInnerOffset address + k.headerAt base address +
        min (g.writeBlockSize - k.headerAt base address) n ≤ g.writeBlockSize := by
  have hle := k.headerAt_le base address
  rw [piece_of_aligned hbase hheader]
  unfold Piece.Fits Piece.written
  dsimp only
  split
  · simp [*]
  · simp only [*, false_or]
    omega

/-- A chunk begun on a page boundary fills page by page. -/
theorem pieces_fit_of_boundary (hbase : g.writeBlockSize ∣ base) (hheader : k.nHeader ≤ g.writeBlockSize)
    (haddress : g.writeBlockSize ∣ address) (hbehind : base ≤ address)
    (hword : address + k.headerAt base address + n ≤ 4294967296) : ∀ p ∈ k.pieces g base address n, p.Fits g := by
  induction n using Nat.strong_induction_on generalizing address with
  | _ n ih =>
    intro p hp
    have hle := k.headerAt_le base address
    rw [Kind.pieces] at hp
    by_cases hn : n = 0
    · rw [if_pos hn] at hp
      cases hp
    · rw [if_neg hn] at hp
      rcases List.mem_cons.mp hp with rfl | hp
      · rw [piece_fits_iff hbase hheader, g.inner_of_dvd haddress]
        omega
      · split at hp
        · cases hp
        · rename_i hpos
          rw [piece_of_aligned hbase hheader] at hp hpos
          dsimp only at hp hpos
          rw [Piece.written, if_neg hpos] at hp
          dsimp only at hp
          by_cases hall : n ≤ g.writeBlockSize - k.headerAt base address
          · rw [Nat.min_eq_right hall, Nat.sub_self, Kind.pieces, if_pos rfl] at hp
            cases hp
          · have hpage : min (g.writeBlockSize - k.headerAt base address) n + k.headerAt base address =
                g.writeBlockSize := by omega
            have hne : base ≠ address + g.writeBlockSize := by
              have := g.writeBlockSize_pos
              omega
            rw [hpage, u32_of_lt (by omega)] at hp
            refine ih _ (by omega) (Nat.dvd_add haddress (Nat.dvd_refl _)) (by omega) ?_ p hp
            rw [k.headerAt_of_ne hne]
            omega

/-- From a base on a page boundary the pieces of a chunk fit exactly when it begins on a page
    boundary or ends in the page it begins in. -/
theorem pieces_fit_iff_of_aligned (hbase : g.writeBlockSize ∣ base) (hheader : k.nHeader < g.writeBlockSize)
    (hbehind : base ≤ address) (hword : address + k.headerAt base address + n ≤ 4294967296) :
    (∀ p ∈ k.pieces g base address n, p.Fits g) ↔ g.writeBlockSize ∣ address ∨
      g.convertAddressIntoWriteBlockInnerOffset address + n ≤ g.writeBlockSize := by
  by_cases haddress : g.writeBlockSize ∣ address
  · exact iff_of_true (pieces_fit_of_boundary hbase hheader.le haddress hbehind hword) (Or.inl haddress)
  · have hne : base ≠ address := fun heq => haddress (heq ▸ hbase)
    have hpiece := piece_of_aligned hbase hheader.le address n
    have hfirst : (k.piece g base address n).Fits g ↔ _ := piece_fits_iff hbase hheader.le
    have hinner : g.convertAddressIntoWriteBlockInnerOffset address ≠ 0 := fun h => haddress (Nat.dvd_of_mod_eq_zero h)
    have hinner' : g.convertAddressIntoWriteBlockInnerOffset address < g.writeBlockSize :=
      Nat.mod_lt _ g.writeBlockSize_pos
    rw [k.headerAt_of_ne hne, Nat.sub_zero, Nat.add_zero] at hfirst
    rw [k.headerAt_of_ne hne, Nat.sub_zero] at hpiece
    rw [or_iff_right haddress, Kind.pieces]
    by_cases hn : n = 0
    · rw [if_pos hn]
      exact iff_of_true (List.forall_mem_nil _) (by omega)
    · rw [if_neg hn, List.forall_mem_cons, hfirst]
      constructor
      · intro h
        rcases h with ⟨hfits, -⟩
        omega
      · intro hfits
        refine ⟨Or.inr (by omega), fun p hp => ?_⟩
        -- the chunk ends with its first piece
        rw [hpiece] at hp
        dsimp only at hp
        rw [Nat.min_eq_right (by omega), dif_neg hn, Nat.sub_self, Kind.pieces, if_pos rfl] at hp
        cases hp

end

/-! ## The reads of the verification -/

def ReadsInPage (g : FlashMemoryGeometry) (ops : List FlashOp) : Prop :=
  ∀ id offset length, .read id offset length ∈ ops → offset + length ≤ g.writeBlockSize

theorem readsInPage_cons {g : FlashMemoryGeometry} {id offset length : Nat} {ops : List FlashOp} :
    ReadsInPage g (.read id offset length :: ops) ↔ offset + length ≤ g.writeBlockSize ∧ ReadsInPage g ops := by
  unfold ReadsInPage
  simp only [List.mem_cons, FlashOp.read.injEq]
  constructor
  · intro h
    exact ⟨h id offset length (Or.inl ⟨rfl, rfl, rfl⟩), fun id' offset' length' hmem => h id' offset' length' (Or.inr hmem)⟩
  · intro h id' offset' length' h'
    rcases h with ⟨hfirst, hrest⟩
    rcases h' with ⟨rfl, rfl, rfl⟩ | hmem
    · exact hfirst
    · exact hrest id' offset' length' hmem

theorem readsInPage_nil (g : FlashMemoryGeometry) : ReadsInPage g [] := fun _ _ _ h => by cases h

theorem readsInPage_reverse {g : FlashMemoryGeometry} {ops : List FlashOp} :
    ReadsInPage g ops.reverse ↔ ReadsInPage g ops := by
  simp only [ReadsInPage, List.mem_reverse]

/-- The write address of a file that starts at `base`: where nothing is written, or behind it.
    Behind the end of the words the addresses start anew, on a page boundary. -/
def Span (g : FlashMemoryGeometry) (base address : Nat) : Prop :=
  address = base ∨ address < 4294967296 ∧ (g.writeBlockSize ∣ 4294967296 ∨ base ≤ address)

section
variable {s : Flusher} {fuel a : Nat}

theorem u32_add_u32Sub {e : Nat} (he : e < 4294967296) (a : Nat) : u32 (a + u32Sub e a) = e := by
  unfold u32 u32Sub uint32
  omega

theorem readFlashMemoryCrc32_stop (h : a = s.flushingState.flashMemoryAddress) : readFlashMemoryCrc32 fuel s a = s := by
  cases fuel with
  | zero => rfl
  | succ fuel => exact if_pos h

/-- From a page boundary every read begins on one. -/
theorem crc_reads_of_aligned (haligned : s.geometry.writeBlockSize ∣ a)
    (hspan : Span s.geometry a s.flushingState.flashMemoryAddress) :
    ∃ ops, s.flashMemory.Issued (readFlashMemoryCrc32 fuel s a).flashMemory ops ∧ ReadsInPage s.geometry ops := by
  induction fuel generalizing s a with
  | zero => exact ⟨[], .refl _, readsInPage_nil _⟩
  | succ fuel ih =>
    by_cases ha : a = s.flushingState.flashMemoryAddress
    · rw [readFlashMemoryCrc32_stop ha]
      exact ⟨[], .refl _, readsInPage_nil _⟩
    · obtain ⟨hlt, horder⟩ := hspan.resolve_left (Ne.symm ha)
      obtain ⟨d, hissued, hrun⟩ := readFlashMemoryCrc32_succ fuel s ha
      rw [s.geometry.inner_of_dvd haligned] at hissued
      have hfirst : 0 + min (u32Sub s.flushingState.flashMemoryAddress a) s.geometry.writeBlockSize ≤
          s.geometry.writeBlockSize := by omega
      rcases hrun with hrun | ⟨f, ⟨crc, hf⟩, hrun⟩
      · rw [hrun]
        exact ⟨_, hissued, readsInPage_cons.mpr ⟨hfirst, readsInPage_nil _⟩⟩
      · rw [hrun]
        have hgeometry : ({ s with flashMemory := d, flushingState := f } : Flusher).geometry = s.geometry :=
          hissued.geometry
        have haddress : f.flashMemoryAddress = s.flushingState.flashMemoryAddress := by rw [hf]
        by_cases hlast : u32Sub s.flushingState.flashMemoryAddress a ≤ s.geometry.writeBlockSize
        · -- the rest of the file lies in this page
          rw [Nat.min_eq_left hlast, u32_add_u32Sub hlt, readFlashMemoryCrc32_stop haddress.symm]
          exact ⟨_, hissued, readsInPage_cons.mpr ⟨hfirst, readsInPage_nil _⟩⟩
        · have hfull : min (u32Sub s.flushingState.flashMemoryAddress a) s.geometry.writeBlockSize =
              s.geometry.writeBlockSize := by omega
          have hnext : s.geometry.writeBlockSize ∣ u32 (a + s.geometry.writeBlockSize) ∧
              Span s.geometry (u32 (a + s.geometry.writeBlockSize)) s.flushingState.flashMemoryAddress := by
            have hdvd : s.geometry.writeBlockSize ∣ a + s.geometry.writeBlockSize := Nat.dvd_add haligned (Nat.dvd_refl _)
            rcases horder with hwraps | hle
            · exact ⟨(Nat.dvd_mod_iff hwraps).mpr hdvd, Or.inr ⟨hlt, Or.inl hwraps⟩⟩
            · have hbehind : a + s.geometry.writeBlockSize < s.flushingState.flashMemoryAddress := by
                unfold u32Sub uint32 at hlast
                omega
              rw [u32_of_lt (Nat.lt_trans hbehind hlt)]
              exact ⟨hdvd, Or.inr ⟨hlt, Or.inr hbehind.le⟩⟩
          rw [hfull] at hissued hfirst ⊢
          have hrest := ih (s := { s with flashMemory := d, flushingState := f })
            (a := u32 (a + s.geometry.writeBlockSize)) (hgeometry ▸ hnext.1) (by rw [hgeometry, haddress]; exact hnext.2)
          obtain ⟨ops, hops, hreads⟩ := hrest
          rw [hgeometry] at hreads
          exact ⟨_, hissued.trans hops, readsInPage_cons.mpr ⟨hfirst, hreads⟩⟩

/-- The verification reads inside pages exactly when the file starts on a page boundary or lies in one page. -/
theorem crc_reads_iff (hongoing : s.flushingState.ongoing = true)
    (hspan : Span s.geometry s.flushingState.baseFlashMemoryAddress s.flushingState.flashMemoryAddress) :
    ReadsInPage s.geometry (s.updateFlashMemoryCrc32.flashMemory.since s.flashMemory.trace.length) ↔
      s.geometry.convertAddressIntoWriteBlockInnerOffset s.flushingState.baseFlashMemoryAddress = 0 ∨
      s.geometry.convertAddressIntoWriteBlockInnerOffset s.flushingState.baseFlashMemoryAddress +
        u32Sub s.flushingState.flashMemoryAddress s.flushingState.baseFlashMemoryAddress ≤ s.geometry.writeBlockSize := by
  generalize hbase : s.flushingState.baseFlashMemoryAddress = base at *
  have hinner : s.geometry.convertAddressIntoWriteBlockInnerOffset base < s.geometry.writeBlockSize :=
    Nat.mod_lt _ s.geometry.writeBlockSize_pos
  have hrun : s.updateFlashMemoryCrc32 =
      readFlashMemoryCrc32 (u32Sub s.flushingState.flashMemoryAddress base + 1) s base := by
    rw [updateFlashMemoryCrc32, hongoing, hbase]
    rfl
  rw [hrun]
  by_cases hnone : base = s.flushingState.flashMemoryAddress
  · have hzero : u32Sub s.flushingState.flashMemoryAddress base = 0 := by
      rw [← hnone]
      unfold u32Sub uint32
      omega
    rw [readFlashMemoryCrc32_stop hnone, (FlashMemory.Issued.refl s.flashMemory).since, hzero]
    exact iff_of_true (readsInPage_nil _) (Or.inr hinner.le)
  · have hlt := (hspan.resolve_left (Ne.symm hnone)).1
    obtain ⟨d, hissued, hnext⟩ :=
      readFlashMemoryCrc32_succ (u32Sub s.flushingState.flashMemoryAddress base) s hnone
    constructor
    · intro hreads
      have hfirst : ∃ rest, ReadsInPage s.geometry (.read (s.geometry.convertAddressIntoWriteBlockOffset base)
          (s.geometry.convertAddressIntoWriteBlockInnerOffset base)
          (min (u32Sub s.flushingState.flashMemoryAddress base) s.geometry.writeBlockSize) :: rest) := by
        rcases hnext with hnext | ⟨f, -, hnext⟩
        · rw [hnext, hissued.since, readsInPage_reverse] at hreads
          exact ⟨[], hreads⟩
        · obtain ⟨ops, hops, -⟩ := readFlashMemoryCrc32_issued
            (u32Sub s.flushingState.flashMemoryAddress base) { s with flashMemory := d, flushingState := f }
            (u32 (base + min (u32Sub s.flushingState.flashMemoryAddress base) s.geometry.writeBlockSize))
          rw [hnext, (hissued.trans hops).since, readsInPage_reverse] at hreads
          exact ⟨ops, hreads⟩
      obtain ⟨rest, hfirst⟩ := hfirst
      have hle := (readsInPage_cons.mp hfirst).1
      omega
    · intro h
      rcases h with haligned | hfits
      · have hpages : s.geometry.writeBlockSize ∣ base := Nat.dvd_of_mod_eq_zero haligned
        obtain ⟨ops, hops, hreads⟩ : ∃ ops, s.flashMemory.Issued (readFlashMemoryCrc32
            (u32Sub s.flushingState.flashMemoryAddress base + 1) s base).flashMemory ops ∧ ReadsInPage s.geometry ops :=
          crc_reads_of_aligned hpages hspan
        rw [hops.since, readsInPage_reverse]
        exact hreads
      · have hmin : min (u32Sub s.flushingState.flashMemoryAddress base) s.geometry.writeBlockSize =
            u32Sub s.flushingState.flashMemoryAddress base := Nat.min_eq_left (by omega)
        rw [hmin] at hissued hnext
        rcases hnext with hnext | ⟨f, ⟨crc, hf⟩, hnext⟩
        · rw [hnext, hissued.since, readsInPage_reverse, readsInPage_cons]
          exact ⟨hfits, readsInPage_nil _⟩
        · have haddress : s.flushingState.flashMemoryAddress = f.flashMemoryAddress := by rw [hf]
          rw [hnext, u32_add_u32Sub hlt, readFlashMemoryCrc32_stop haddress, hissued.since, readsInPage_reverse,
            readsInPage_cons]
          exact ⟨hfits, readsInPage_nil _⟩

end

/-! ## Where the write address stands -/

/-- A piece that lies in a page of the device leaves the address behind it. -/
theorem Piece.Fits.span {g : FlashMemoryGeometry} {d : FlashMemory} {p : Piece} {base n : Nat} (hfits : p.Fits g)
    (hpos : 0 < p.length) (hg : d.geometry = g) (hread : ¬ Stops d n (p.readOp g)) (hspan : Span g base p.address) :
    Span g base (u32 (p.address + p.written)) := by
  have hinside : g.convertAddressIntoWriteBlockOffset p.address * g.writeBlockSize + 0 + g.writeBlockSize ≤ g.size := by
    have hsucceeds : d.Succeeds n (p.readOp g) := Decidable.not_not.mp hread
    rw [FlashMemory.Succeeds, hg] at hsucceeds
    exact hsucceeds.2
  have hpage := (hfits.resolve_left hpos.ne').2
  have hsplit := Nat.div_add_mod' p.address g.writeBlockSize
  unfold FlashMemoryGeometry.convertAddressIntoWriteBlockOffset FlashMemoryGeometry.convertAddressIntoWriteBlockInnerOffset at *
  have hend : p.address + p.written ≤ g.size := by omega
  have hsize : g.size ≤ 4294967296 := g.addressable
  by_cases hwraps : g.writeBlockSize ∣ 4294967296
  · exact Or.inr ⟨Nat.mod_lt _ (by decide), Or.inl hwraps⟩
  · have hne : g.size ≠ 4294967296 := fun heq => hwraps (heq ▸ g.dvd_size)
    have hlt : p.address + p.written < 4294967296 := by omega
    have hbase : base ≤ p.address := by
      rcases hspan with heq | ⟨-, hdvd | hle⟩
      · exact heq.ge
      · exact absurd hdvd hwraps
      · exact hle
    rw [u32_of_lt hlt]
    exact Or.inr ⟨hlt, Or.inr (by omega)⟩

section
variable {k : Kind} {s : Flusher} {file : File} {chunk : List UInt8} {total fuel : Nat}

/-- Pieces that fit leave the address behind the base, however the loop is left. -/
theorem writeFile_span (hf : total < chunk.length → Holds s.fs file chunk total) (htotal : total ≤ chunk.length)
    (hongoing : s.flushingState.ongoing = true) (hfuel : chunk.length < fuel + total) (isLastChunk : Bool)
    (hspan : Span s.geometry s.flushingState.baseFlashMemoryAddress s.flushingState.flashMemoryAddress)
    (hfits : ∀ p ∈ reached s.geometry s.flashMemory s.flashMemory.trace.length (lastErased s.flushingState)
      (k.pieces s.geometry s.flushingState.baseFlashMemoryAddress s.flushingState.flashMemoryAddress
        (chunk.length - total)), p.Fits s.geometry) (s' : Flusher) :
    let r := writeFile k.implementor file chunk.length isLastChunk fuel s total
    r = .next s' isLastChunk ∨ r = .returned s' → s'.geometry = s.geometry ∧
      Span s.geometry s'.flushingState.baseFlashMemoryAddress s'.flushingState.flashMemoryAddress := by
  induction fuel generalizing s total with
  | zero => omega
  | succ fuel ih =>
    intro r hr
    by_cases hend : total = chunk.length
    · have hrun : r = .next s isLastChunk := if_pos hend
      rw [hrun] at hr
      rcases hr with hr | hr
      · cases hr
        exact ⟨rfl, hspan⟩
      · cases hr
    · have hlt : total < chunk.length := Nat.lt_of_le_of_ne htotal hend
      have hrun : r = _ := writeFile_succ k.implementor isLastChunk hlt
      have hround := round_carries_out (k := k) (hf hlt) hlt hongoing isLastChunk
      rw [pieces_next hlt, reached] at hfits
      have haddress : (nextPiece k s chunk total).address = s.flushingState.flashMemoryAddress := rfl
      dsimp only at hround hfits
      rw [haddress] at hfits
      rw [← haddress] at hspan
      generalize nextPiece k s chunk total = p at *
      generalize hn : s.flashMemory.trace.length +
        (eraseOps s.geometry (lastErased s.flushingState) s.flushingState.flashMemoryAddress).length = n at hround hfits
      rcases hround with ⟨hzero, hcontinue, hpanic⟩ |
          ⟨s'', hissued, hongoing', hbase, ⟨hclear, hpos, hnext, hholds, haddress', hlast⟩ | ⟨hstopped, hreturned, hsame⟩⟩
      · rw [hrun, hpanic] at hr
        rcases hr with hr | hr <;> cases hr
      · rw [Plan.issued_of_clear hclear] at hissued
        rw [Piece.ops, if_neg hpos.ne'] at hissued hclear
        rw [if_neg hclear.1, if_neg hclear.2.1, if_neg hpos.ne', List.forall_mem_cons] at hfits
        have hgeometry : s''.geometry = s.geometry := hissued.geometry
        have hlength : s''.flashMemory.trace.length = n + 2 := by
          rw [hissued.length, List.length_append, ← Nat.add_assoc, hn]
          rfl
        have hspan' := hfits.1.span hpos rfl hclear.1 hspan
        have hrest := @ih s'' (total + p.length) (fun _ => hholds) hholds.inside hongoing' (by omega)
        rw [hgeometry, reached_congr hissued, hlength, hbase, haddress', hlast] at hrest
        rw [haddress] at hspan'
        rw [hrun, hnext] at hr
        exact hrest hspan' hfits.2 hr
      · rw [hrun, hreturned] at hr
        rcases hr with hr | hr
        · cases hr
        · cases hr
          refine ⟨hissued.geometry, ?_⟩
          rw [hbase, hsame, ← haddress]
          exact hspan

end

/-! ## One call -/

def callPieces (k : Kind) (memoryPartitionTable : File → Option Nat) (s : Flusher) (c : Call) : List Piece :=
  match start memoryPartitionTable s c.file with
  | none => []
  | some s =>
    k.pieces s.geometry s.flushingState.baseFlashMemoryAddress s.flushingState.flashMemoryAddress c.chunk.length

def callReached (k : Kind) (memoryPartitionTable : File → Option Nat) (s : Flusher) (c : Call) : List Piece :=
  match start memoryPartitionTable s c.file with
  | none => []
  | some s₁ =>
    let address := s₁.flushingState.flashMemoryAddress
    reached s.geometry s.flashMemory
      (s.flashMemory.trace.length + (eraseOps s.geometry (lastErased s₁.flushingState) address).length)
      (some (s.geometry.convertAddressIntoEraseBlockOffset address)) (callPieces k memoryPartitionTable s c)

/-- No page of the call fails, and none is without room. -/
def Completes (k : Kind) (memoryPartitionTable : File → Option Nat) (s : Flusher) (c : Call) : Prop :=
  Plan.Clear (Stops s.flashMemory) s.flashMemory.trace.length (callOps k memoryPartitionTable s c) ∧
    ∀ p ∈ callPieces k memoryPartitionTable s c, 0 < p.length

/-- What is flushed of the file begins on a page boundary or lies in one page. -/
def VerifiedFits (g : FlashMemoryGeometry) (base address : Nat) : Prop :=
  g.convertAddressIntoWriteBlockInnerOffset base = 0 ∨
    g.convertAddressIntoWriteBlockInnerOffset base + u32Sub address base ≤ g.writeBlockSize

/-- Each piece that is reached lies in a page, and so does what is verified behind a last chunk. -/
structure Fits (k : Kind) (memoryPartitionTable : File → Option Nat) (s : Flusher) (c : Call) : Prop where
  pieces : ∀ p ∈ callReached k memoryPartitionTable s c, p.Fits s.geometry
  verified : c.isLastChunk = true → Completes k memoryPartitionTable s c →
    ∀ s₁, start memoryPartitionTable s c.file = some s₁ → VerifiedFits s.geometry s₁.flushingState.baseFlashMemoryAddress
      (endAddress s₁.flushingState.flashMemoryAddress (callPieces k memoryPartitionTable s c))

/-- The write address of a transfer under way stands behind its base. -/
def Spans (s : Flusher) : Prop := s.flushingState.ongoing = true →
  Span s.geometry s.flushingState.baseFlashMemoryAddress s.flushingState.flashMemoryAddress

section
variable {k : Kind} {memoryPartitionTable : File → Option Nat} {s s' : Flusher} {c : Call}

theorem start_span {s₁ : Flusher} (h : start memoryPartitionTable s c.file = some s₁) (hspans : Spans s) :
    Span s.geometry s₁.flushingState.baseFlashMemoryAddress s₁.flushingState.flashMemoryAddress := by
  unfold start at h
  by_cases hongoing : s.flushingState.ongoing = true
  · rw [if_pos hongoing] at h
    obtain rfl := Option.some_inj.mp h
    exact hspans hongoing
  · rw [if_neg hongoing] at h
    obtain ⟨address, -, rfl⟩ := Option.map_eq_some_iff.mp h
    exact Or.inl rfl

/-- What the loop is entered with, in the words of the plan. -/
theorem enter_pieces (h : enter memoryPartitionTable s c = some s') :
    s'.geometry = s.geometry ∧ s'.flushingState.ongoing = true ∧
      k.pieces s.geometry s'.flushingState.baseFlashMemoryAddress s'.flushingState.flashMemoryAddress c.chunk.length =
        callPieces k memoryPartitionTable s c ∧
      reached s'.geometry s'.flashMemory s'.flashMemory.trace.length (lastErased s'.flushingState)
        (callPieces k memoryPartitionTable s c) = callReached k memoryPartitionTable s c := by
  obtain ⟨s₁, hstart, hflash, hissued, hbase, haddress, hongoing, hlast, -⟩ := enter_spec h
  have hgeometry : s'.geometry = s.geometry := hissued.geometry
  have hgeometry₁ : s₁.geometry = s.geometry := congrArg FlashMemory.geometry hflash
  have hpieces : k.pieces s.geometry s'.flushingState.baseFlashMemoryAddress s'.flushingState.flashMemoryAddress
      c.chunk.length = callPieces k memoryPartitionTable s c := by
    rw [callPieces, hstart, hbase, haddress, ← hgeometry₁]
  refine ⟨hgeometry, hongoing, hpieces, ?_⟩
  have hlast' : lastErased s'.flushingState =
      some (s.geometry.convertAddressIntoEraseBlockOffset s₁.flushingState.flashMemoryAddress) := by
    rw [lastErased, if_pos hongoing, hlast]
  rw [hgeometry, reached_congr hissued, hissued.length, hlast']
  unfold callReached
  rw [hstart]

theorem pageBuffer_iff (h : enter memoryPartitionTable s c = some s') :
    (∀ a ∈ loopAccesses k c.file c.chunk.length c.isLastChunk (c.chunk.length + 1) s' 0, a.InBuffer s.geometry) ↔
      ∀ p ∈ callReached k memoryPartitionTable s c, p.Fits s.geometry := by
  obtain ⟨hgeometry, hongoing, hpieces, hreached⟩ := enter_pieces (k := k) h
  obtain ⟨-, -, -, -, -, -, -, -, hholds⟩ := enter_spec h
  have hfuel : c.chunk.length < c.chunk.length + 1 + 0 := Nat.lt_succ_self _
  have hloop := loopAccesses_eq (k := k) hholds (Nat.zero_le _) hongoing hfuel c.isLastChunk
  dsimp only at hloop
  rw [Nat.sub_zero, hgeometry, hpieces, ← hgeometry, hreached, hgeometry] at hloop
  rw [hloop, List.forall_mem_flatMap]
  simp only [Piece.fits_iff]

/-- Where the pieces fit, the address the loop leaves stands behind the base. -/
theorem writeChunk_span (h : enter memoryPartitionTable s c = some s') (hspans : Spans s)
    (hfits : ∀ p ∈ callReached k memoryPartitionTable s c, p.Fits s.geometry) (s'' : Flusher)
    (hr : writeChunk k s' c = .next s'' c.isLastChunk ∨ writeChunk k s' c = .returned s'') :
    s''.geometry = s.geometry ∧
      Span s.geometry s''.flushingState.baseFlashMemoryAddress s''.flushingState.flashMemoryAddress := by
  obtain ⟨hgeometry, hongoing, hpieces, hreached⟩ := enter_pieces (k := k) h
  obtain ⟨s₁, hstart, -, -, hbase, haddress, -, -, hholds⟩ := enter_spec h
  have hspan := start_span hstart hspans
  rw [← hbase, ← haddress, ← hgeometry] at hspan
  rw [← hgeometry] at hpieces hfits
  rw [← hreached, ← hpieces] at hfits
  have hfuel : c.chunk.length < c.chunk.length + 1 + 0 := Nat.lt_succ_self _
  have hspan' := writeFile_span (k := k) hholds (Nat.zero_le _) hongoing hfuel c.isLastChunk hspan hfits s'' hr
  rw [← hgeometry]
  exact hspan'

theorem verifyingReads_iff (h : enter memoryPartitionTable s c = some s') (hspans : Spans s)
    (hfits : ∀ p ∈ callReached k memoryPartitionTable s c, p.Fits s.geometry) :
    ReadsInPage s.geometry (verifyingReads k s' c) ↔ (c.isLastChunk = true → Completes k memoryPartitionTable s c →
      VerifiedFits s.geometry s'.flushingState.baseFlashMemoryAddress
        (endAddress s'.flushingState.flashMemoryAddress (callPieces k memoryPartitionTable s c))) := by
  have hspan := writeChunk_span (k := k) h hspans hfits
  have hrun := writeChunk_carries_out (k := k) h
  dsimp only at hrun
  rw [(enter_pieces (k := k) h).2.2.1] at hrun
  unfold verifyingReads
  rcases hrun with ⟨⟨p, hp, hzero⟩, -, hpanic⟩ | ⟨s'', hissued, hongoing, ⟨hclear, hpos, hnext, hbase, haddress, -⟩ |
      ⟨hstopped, hreturned⟩⟩
  · rw [hpanic]
    refine iff_of_true (readsInPage_nil _) fun _ hcompletes => ?_
    exact absurd hzero (hcompletes.2 p hp).ne'
  · obtain ⟨hgeometry, hspan⟩ := hspan s'' (Or.inl hnext)
    rw [hnext]
    by_cases hlast : c.isLastChunk = true
    · have hcompletes : Completes k memoryPartitionTable s c := ⟨hclear, hpos⟩
      have hreads := crc_reads_iff hongoing (hgeometry ▸ hspan)
      rw [hgeometry, hbase, haddress] at hreads
      rw [hlast]
      simp only [forall_const, hcompletes]
      exact hreads
    · rw [Bool.eq_false_iff.mpr hlast]
      exact iff_of_true (readsInPage_nil _) fun h => by cases h
  · rw [hreturned]
    exact iff_of_true (readsInPage_nil _) fun _ hcompletes => absurd hcompletes.1 hstopped

theorem inBounds_iff_fits (hspans : Spans s) : InBounds k memoryPartitionTable s c ↔ Fits k memoryPartitionTable s c := by
  cases h : enter memoryPartitionTable s c with
  | none =>
    have hstart : start memoryPartitionTable s c.file = none := by
      unfold enter at h
      rw [start_fs] at h
      simpa using h
    refine iff_of_true ⟨fun s' hs' => ?_, fun s' hs' => ?_⟩ ⟨fun p hp => ?_, fun _ _ s₁ hs₁ => ?_⟩
    · rw [h] at hs'
      cases hs'
    · rw [h] at hs'
      cases hs'
    · rw [callReached, hstart] at hp
      cases hp
    · rw [hstart] at hs₁
      cases hs₁
  | some s' =>
    obtain ⟨s₁, hstart, -, -, hbase, haddress, -⟩ := enter_spec h
    constructor
    · intro hin
      have hfits := (pageBuffer_iff h).mp (hin.pageBuffer s' h)
      have hverified := (verifyingReads_iff h hspans hfits).mp (hin.readBlock s' h)
      refine ⟨hfits, fun hlast hcompletes s₂ hs₂ => ?_⟩
      obtain rfl : s₁ = s₂ := Option.some_inj.mp (hstart.symm.trans hs₂)
      rw [← hbase, ← haddress]
      exact hverified hlast hcompletes
    · intro hfits
      refine ⟨fun s₂ hs₂ => ?_, fun s₂ hs₂ => ?_⟩
      · obtain rfl : s' = s₂ := Option.some_inj.mp (h.symm.trans hs₂)
        exact (pageBuffer_iff h).mpr hfits.pieces
      · obtain rfl : s' = s₂ := Option.some_inj.mp (h.symm.trans hs₂)
        refine (verifyingReads_iff h hspans hfits.pieces).mpr fun hlast hcompletes => ?_
        rw [hbase, haddress]
        exact hfits.verified hlast hcompletes s₁ hstart

theorem Spans.call (hspans : Spans s) (hcall : call k memoryPartitionTable s c = some s')
    (hfits : ∀ p ∈ callReached k memoryPartitionTable s c, p.Fits s.geometry) : Spans s' := by
  rw [call_eq] at hcall
  cases h : enter memoryPartitionTable s c with
  | none =>
    rw [h] at hcall
    obtain rfl := Option.some_inj.mp hcall
    exact hspans
  | some s₀ =>
    simp only [h] at hcall
    have hspan := writeChunk_span (k := k) h hspans hfits
    rcases writeChunk_carries_out (k := k) h with ⟨-, -, hpanic⟩ | ⟨s'', -, -, ⟨-, -, hnext, -⟩ | ⟨-, hreturned⟩⟩
    · simp only [hpanic] at hcall
      cases hcall
    · obtain ⟨hgeometry, hspan⟩ := hspan s'' (Or.inl hnext)
      simp only [hnext] at hcall
      obtain ⟨ops, hissued, -, hstate⟩ := finish_spec hcall
      intro hongoing
      by_cases hlast : c.isLastChunk = true
      · rw [hstate, if_pos hlast] at hongoing
        cases hongoing
      · rw [hstate, if_neg hlast, show s'.geometry = s''.geometry from hissued.geometry, hgeometry]
        exact hspan
    · obtain ⟨hgeometry, hspan⟩ := hspan s'' (Or.inr hreturned)
      simp only [hreturned] at hcall
      obtain rfl := Option.some_inj.mp hcall
      intro _
      rw [hgeometry]
      exact hspan

end

/-! ## Runs -/

/-- **Page buffer bounds.** Whatever operations of the device fail, the indices of the page
    buffer and the reads of the verification stay inside a page exactly as long as each piece
    that is reached, and what is verified, lies in one page of the flash. -/
theorem page_buffer_bounds_iff (k : Kind) (memoryPartitionTable : File → Option Nat) (d : FlashMemory)
    (fs : SingleBufferRamFileSystem) (calls : List Call) :
    Allowed (call k memoryPartitionTable) (InBounds k memoryPartitionTable) ⟨d, {}, fs⟩ calls ↔
      Allowed (call k memoryPartitionTable) (Fits k memoryPartitionTable) ⟨d, {}, fs⟩ calls := by
  refine allowed_iff_allowed (I := Spans) ?_ ?_ ?_
  · intro s c s' hcall hspans hfits
    exact hspans.call hcall hfits.pieces
  · intro s c hspans
    exact inBounds_iff_fits hspans
  · intro hongoing
    cases hongoing

/-- Six bytes end inside the second page: the checksum of the seven bytes that follow is
    taken of the indices from two to eight, of a page buffer of eight. -/
theorem a_checksum_reads_behind_the_page_buffer :
    ¬ Allowed (call .salute saluteFlashMemoryPartitionTable) (InBounds .salute saluteFlashMemoryPartitionTable)
      smallFlusher [showCall [1, 2, 3, 4, 5, 6] false (by decide), showCall [7, 8, 9, 10, 11, 12, 13] false (by decide)] := by
  intro h
  have hloop : ((call .salute saluteFlashMemoryPartitionTable smallFlusher
      (showCall [1, 2, 3, 4, 5, 6] false (by decide))).bind fun s =>
        (enter saluteFlashMemoryPartitionTable s (showCall [7, 8, 9, 10, 11, 12, 13] false (by decide))).map fun s' =>
          decide (⟨2, 7⟩ ∈ loopAccesses .salute showFile 7 false 8 s' 0) && decide (s.geometry.writeBlockSize = 8)) =
      some true := by decide +kernel
  obtain ⟨s, hcall, hnext⟩ := Option.bind_eq_some_iff.mp hloop
  obtain ⟨s', henter, hmem⟩ := Option.map_eq_some_iff.mp hnext
  obtain ⟨hmem, hpage⟩ := Bool.and_eq_true_iff.mp hmem
  have hin := (h.2 s hcall).1.pageBuffer s' henter ⟨2, 7⟩ (of_decide_eq_true hmem) 6 (by decide)
  rw [of_decide_eq_true hpage] at hin
  exact absurd hin (by decide)

end Esp32Cam.Bft.Flusher
