/-
  Esp32Cam.Bft.FlashPlan — what a call asks of the flash memory.

  A chunk is cut into pieces, one for each round of the write loop (`Kind.pieces`): where
  the write address stands, where in the page buffer the bytes of the file are put, and
  how many. For each piece the page is read and written back, and its block erased where
  it is not the one erased last (`opsOf`). `callOps` is the plan of a whole call, told from
  the state before it and the length of the chunk.

  The call carries its plan out up to the first page that cannot be read or written
  (`writeFile_carries_out`): the loop is left there, and ends when there is none.
-/

import Esp32Cam.Lib.Plan
import Esp32Cam.Bft.SaluteFlashImage

namespace Esp32Cam.Bft.Flusher

open Esp32Cam.Lib Esp32Cam.Ut Esp32Cam.Sys

/-! ## The two classes -/

inductive Kind where
  | flashMemory
  | salute
  deriving DecidableEq, Repr

def Kind.implementor : Kind → Implementor
  | .flashMemory => flashMemoryTransferImplementor
  | .salute => saluteFlashMemoryTransferImplementor

/-- Where in a page the bytes of the file go, how many at most, and what is kept in front of them. -/
structure Layout where
  pageBufferInnerOffset : Nat
  maxWriteSize : Nat
  nHeader : Nat

def plainLayout (g : FlashMemoryGeometry) (base : Nat) : Layout :=
  let pageBufferInnerOffset := g.convertAddressIntoWriteBlockInnerOffset base
  ⟨pageBufferInnerOffset, g.writeBlockSize - pageBufferInnerOffset, 0⟩

/-- How the page of the write address is formatted, in a file that starts at `base`. -/
def Kind.layout (g : FlashMemoryGeometry) (base address : Nat) : Kind → Layout
  | .flashMemory => plainLayout g base
  | .salute =>
    if base = address then ⟨kFileHeaderOffset, u32Sub g.writeBlockSize kFileHeaderOffset, kFileHeaderOffset⟩
    else plainLayout g base

theorem Kind.format_eq (k : Kind) (s : Flusher) (pageBuffer : List UInt8) (file : File) (isLastChunk : Bool) :
    k.implementor.formatFlashMemoryPageContent s pageBuffer file isLastChunk =
      let l := k.layout s.geometry s.flushingState.baseFlashMemoryAddress s.flushingState.flashMemoryAddress
      s.readIntoPage pageBuffer file l.pageBufferInnerOffset l.maxWriteSize l.nHeader := by
  cases k with
  | flashMemory => rfl
  | salute =>
    show s.saluteFormatFlashMemoryPageContent pageBuffer file isLastChunk = _
    unfold saluteFormatFlashMemoryPageContent FlushingState.isFirstChunk Kind.layout
    by_cases hfirst : s.flushingState.baseFlashMemoryAddress = s.flushingState.flashMemoryAddress
    · simp [hfirst]
    · simp [hfirst, formatFlashMemoryPageContent, plainLayout]

/-! ## The pieces of a chunk -/

/-- `length` bytes of the file, put into the page of `address`. -/
structure Piece where
  address : Nat
  pageBufferInnerOffset : Nat
  nHeader : Nat
  length : Nat
  deriving DecidableEq, Repr

def Piece.written (p : Piece) : Nat := if p.length = 0 then 0 else p.length + p.nHeader

/-- The piece at `address` of a chunk of which `n` bytes are left. -/
def Kind.piece (k : Kind) (g : FlashMemoryGeometry) (base address n : Nat) : Piece :=
  let l := k.layout g base address
  ⟨address, l.pageBufferInnerOffset, l.nHeader, min l.maxWriteSize n⟩

/-- A piece without bytes is the last one: the program panics there. -/
def Kind.pieces (k : Kind) (g : FlashMemoryGeometry) (base address n : Nat) : List Piece :=
  if n = 0 then []
  else
    let p := k.piece g base address n
    p :: if _h : p.length = 0 then [] else pieces k g base (u32 (address + p.written)) (n - p.length)
termination_by n
decreasing_by
  have hne : ¬ (k.piece g base address n).length = 0 := by assumption
  have hle : (k.piece g base address n).length ≤ n := Nat.min_le_right _ n
  show n - (k.piece g base address n).length < n
  omega

/-! ## A base on a page boundary -/

/-- The bytes kept in front of the file. -/
def Kind.nHeader : Kind → Nat
  | .flashMemory => 0
  | .salute => kFileHeaderOffset

def Kind.headerAt (k : Kind) (base address : Nat) : Nat := if base = address then k.nHeader else 0

theorem Kind.headerAt_le (k : Kind) (base address : Nat) : k.headerAt base address ≤ k.nHeader := by
  unfold Kind.headerAt
  split
  · exact Nat.le_refl _
  · exact Nat.zero_le _

theorem Kind.headerAt_of_ne (k : Kind) {base address : Nat} (h : base ≠ address) : k.headerAt base address = 0 := if_neg h

/-- The pages are filled from their start, the first one from behind the header. -/
theorem piece_of_aligned {k : Kind} {g : FlashMemoryGeometry} {base : Nat} (hbase : g.writeBlockSize ∣ base)
    (hheader : k.nHeader ≤ g.writeBlockSize) (address n : Nat) : k.piece g base address n =
      ⟨address, k.headerAt base address, k.headerAt base address, min (g.writeBlockSize - k.headerAt base address) n⟩ := by
  have hplain : plainLayout g base = ⟨0, g.writeBlockSize, 0⟩ := by
    simp only [plainLayout, g.inner_of_dvd hbase, Nat.sub_zero]
  cases k with
  | flashMemory => simp only [Kind.piece, Kind.layout, Kind.headerAt, Kind.nHeader, hplain, ite_self, Nat.sub_zero]
  | salute =>
    have hsub : u32Sub g.writeBlockSize kFileHeaderOffset = g.writeBlockSize - kFileHeaderOffset := by
      have hlt := g.writeBlockSize_lt
      have hle : kFileHeaderOffset ≤ g.writeBlockSize := hheader
      unfold u32Sub uint32
      omega
    by_cases hfirst : base = address
    · simp only [Kind.piece, Kind.layout, Kind.headerAt, Kind.nHeader, if_pos hfirst, hsub]
    · simp only [Kind.piece, Kind.layout, Kind.headerAt, if_neg hfirst, hplain, Nat.sub_zero]

/-! ## The operations of a plan -/

section
variable (g : FlashMemoryGeometry)

/-- The block of the address is erased where it is not the one erased last. -/
def eraseOps (last : Option Nat) (address : Nat) : List FlashOp :=
  if last = some (g.convertAddressIntoEraseBlockOffset address) then []
  else [.erase (g.convertAddressIntoEraseBlockOffset address)]

def Piece.readOp (p : Piece) : FlashOp :=
  .read (g.convertAddressIntoWriteBlockOffset p.address) 0 g.writeBlockSize

/-- The page buffer is as long as a page, where the piece fits into it. -/
def Piece.writeOp (p : Piece) : FlashOp :=
  .write (g.convertAddressIntoWriteBlockOffset p.address) 0
    (max g.writeBlockSize (min p.pageBufferInnerOffset g.writeBlockSize + p.length))

def Piece.ops (p : Piece) : List FlashOp := p.readOp g :: if p.length = 0 then [] else [p.writeOp g]

def opsOf : Option Nat → List Piece → List FlashOp
  | _, [] => []
  | last, p :: ps => eraseOps g last p.address ++ p.ops g ++ opsOf (some (g.convertAddressIntoEraseBlockOffset p.address)) ps

end

/-- A page cannot be read or written; that a block cannot be erased is ignored. -/
def Stops (d : FlashMemory) (n : Nat) : FlashOp → Prop
  | .erase _ => False
  | op => ¬ d.Succeeds n op

instance Stops.decidable (d : FlashMemory) (n : Nat) : ∀ op, Decidable (Stops d n op)
  | .erase _ => inferInstanceAs (Decidable False)
  | .read id offset length => inferInstanceAs (Decidable (¬ d.Succeeds n (.read id offset length)))
  | .write id offset length => inferInstanceAs (Decidable (¬ d.Succeeds n (.write id offset length)))

/-! ## The calls -/

/-- The file holds the chunk, with the cursor behind it; the cursor of one that has been flushed is at its start. -/
def HandedOver (fs : SingleBufferRamFileSystem) (file : File) (chunk : List UInt8) : Prop :=
  Holds fs file chunk chunk.length ∨ chunk = [] ∧ ∃ content, Holds fs file content 0

structure Call where
  file : File
  fs : SingleBufferRamFileSystem
  chunk : List UInt8
  isLastChunk : Bool
  handedOver : HandedOver fs file chunk

def call (k : Kind) (memoryPartitionTable : File → Option Nat) (s : Flusher) (c : Call) : Option Flusher :=
  onFileBufferingFinished k.implementor memoryPartitionTable { s with fs := c.fs } c.file c.isLastChunk

def lastErased (f : FlushingState) : Option Nat := if f.ongoing then some f.lastErasedBlockOffset else none

/-- The plan of flushing `n` bytes: the erase at the start, then the pieces. -/
def planOf (k : Kind) (g : FlashMemoryGeometry) (f : FlushingState) (n : Nat) : List FlashOp :=
  eraseOps g (lastErased f) f.flashMemoryAddress ++
    opsOf g (some (g.convertAddressIntoEraseBlockOffset f.flashMemoryAddress))
      (k.pieces g f.baseFlashMemoryAddress f.flashMemoryAddress n)

def callOps (k : Kind) (memoryPartitionTable : File → Option Nat) (s : Flusher) (c : Call) : List FlashOp :=
  match start memoryPartitionTable s c.file with
  | none => []
  | some s => planOf k s.geometry s.flushingState c.chunk.length

/-! ## One round -/

/-- `s'` stands where `s` does: only the checksums may differ. -/
def SamePlace (f f' : FlushingState) : Prop := ∃ crc, f' = { f with crc32CalculationState := crc }

theorem preErase_issued (s : Flusher) : s.flashMemory.Issued s.preErase.flashMemory
    (eraseOps s.geometry (lastErased s.flushingState) s.flushingState.flashMemoryAddress) := by
  unfold preErase shouldEraseCurrentFlashMemoryBlock eraseOps lastErased
  generalize hb : s.geometry.convertAddressIntoEraseBlockOffset s.flushingState.flashMemoryAddress = block
  by_cases hongoing : s.flushingState.ongoing = true
  · by_cases hlast : s.flushingState.lastErasedBlockOffset = block
    · simpa [hongoing, hlast] using FlashMemory.Issued.refl s.flashMemory
    · simpa [hongoing, hlast, tryEraseCurrentFlashMemoryBlock, hb] using s.flashMemory.eraseBlock_issued block
  · simpa [hongoing, tryEraseCurrentFlashMemoryBlock, hb] using s.flashMemory.eraseBlock_issued block

theorem length_splice_max {α : Type} (xs ys : List α) (i : Nat) :
    (splice xs i ys).length = max xs.length (min i xs.length + ys.length) := by
  simp only [splice, List.length_append, List.length_take, List.length_drop]
  omega

section
variable {k : Kind} {s : Flusher} {file : File} {chunk : List UInt8} {total : Nat} {isLastChunk : Bool}

def nextPiece (k : Kind) (s : Flusher) (chunk : List UInt8) (total : Nat) : Piece :=
  k.piece s.geometry s.flushingState.baseFlashMemoryAddress s.flushingState.flashMemoryAddress (chunk.length - total)

/-- Formatting puts the piece into the page. -/
theorem format_spec (hf : Holds s.fs file chunk total) (ht : total < chunk.length) {pageBuffer : List UInt8}
    (hlen : pageBuffer.length = s.geometry.writeBlockSize) (isLastChunk : Bool) :
    ∃ page fs', k.implementor.formatFlashMemoryPageContent s pageBuffer file isLastChunk =
        ({ s with fs := fs' }, page, (nextPiece k s chunk total).written, (nextPiece k s chunk total).length) ∧
      Holds fs' file chunk (total + (nextPiece k s chunk total).length) ∧
      page.length = max s.geometry.writeBlockSize
        (min (nextPiece k s chunk total).pageBufferInnerOffset s.geometry.writeBlockSize +
          (nextPiece k s chunk total).length) := by
  rw [k.format_eq]
  unfold nextPiece Kind.piece readIntoPage
  generalize k.layout s.geometry s.flushingState.baseFlashMemoryAddress s.flushingState.flashMemoryAddress = l
  obtain ⟨offset, room, header⟩ := l
  by_cases hroom : room > 0
  · have hdata : ((chunk.drop total).take room).length = min room (chunk.length - total) := by
      rw [List.length_take, List.length_drop]
    have hpos : min room (chunk.length - total) ≠ 0 := by omega
    have hholds := hf.at_cursor (c := total + min room (chunk.length - total)) (by omega)
    refine ⟨splice pageBuffer offset ((chunk.drop total).take room), _, ?_, hholds, ?_⟩
    · simp only [hroom, if_true, hf.read, hdata, Piece.written, hpos, if_false]
    · rw [length_splice_max, hlen, hdata]
  · have hzero : room = 0 := by omega
    subst hzero
    refine ⟨pageBuffer, s.fs, ?_, ?_, ?_⟩
    · simp [Piece.written]
    · simpa using hf
    · dsimp only
      rw [hlen, Nat.zero_min]
      omega

/-- Reading the current page. -/
theorem tryRead_carries_out (s : Flusher) :
    let page := s.geometry.convertAddressIntoWriteBlockOffset s.flushingState.flashMemoryAddress
    let op := FlashOp.read page 0 s.geometry.writeBlockSize
    ∃ d, s.flashMemory.Issued d [op] ∧
      (s.flashMemory.Succeeds s.flashMemory.trace.length op ∧ (∃ pageBuffer : List UInt8,
          pageBuffer.length = s.geometry.writeBlockSize ∧
          s.tryReadCurrentFlashMemoryPageContent = ({ s with flashMemory := d }, some pageBuffer)) ∨
        ¬ s.flashMemory.Succeeds s.flashMemory.trace.length op ∧
          s.tryReadCurrentFlashMemoryPageContent = ({ s with flashMemory := d }, none)) := by
  intro page op
  let r := s.flashMemory.readBlock page 0 s.geometry.writeBlockSize
  have htry : s.tryReadCurrentFlashMemoryPageContent = ({ s with flashMemory := r.1 }, r.2) := rfl
  refine ⟨r.1, s.flashMemory.readBlock_issued page 0 s.geometry.writeBlockSize, ?_⟩
  by_cases hread : s.flashMemory.Succeeds s.flashMemory.trace.length op
  · obtain ⟨pageBuffer, hlen, hbuffer⟩ := FlashMemory.readBlock_of_succeeds hread
    have hsome : r.2 = some pageBuffer := congrArg Prod.snd hbuffer
    exact Or.inl ⟨hread, pageBuffer, hlen, by rw [htry, hsome]⟩
  · have hnone : r.2 = none := congrArg Prod.snd (FlashMemory.readBlock_of_fails hread)
    exact Or.inr ⟨hread, by rw [htry, hnone]⟩

/-- The plan of one page, and what comes of it. -/
theorem writePage_carries_out (hf : Holds s.fs file chunk total) (ht : total < chunk.length) (isLastChunk : Bool) :
    let p := nextPiece k s chunk total
    let n := s.flashMemory.trace.length
    (p.length = 0 ∧ ¬ Stops s.flashMemory n (p.readOp s.geometry) ∧
      writePage k.implementor s file isLastChunk = .panicked) ∨
    ∃ s', s.flashMemory.Issued s'.flashMemory (Plan.issued (Stops s.flashMemory) n (p.ops s.geometry)) ∧
      (Plan.Clear (Stops s.flashMemory) n (p.ops s.geometry) ∧ 0 < p.length ∧
          writePage k.implementor s file isLastChunk = .next s' p.length ∧ Holds s'.fs file chunk (total + p.length) ∧
          SamePlace { s.flushingState with
            flashMemoryAddress := u32 (s.flushingState.flashMemoryAddress + p.written) } s'.flushingState ∨
        ¬ Plan.Clear (Stops s.flashMemory) n (p.ops s.geometry) ∧
          writePage k.implementor s file isLastChunk = .returned s' ∧ SamePlace s.flushingState s'.flushingState) := by
  intro p n
  let g := s.geometry
  let page := g.convertAddressIntoWriteBlockOffset s.flushingState.flashMemoryAddress
  obtain ⟨d, hissued, ⟨hread, buffer, hlen, htry⟩ | ⟨hread, htry⟩⟩ := tryRead_carries_out s
  · obtain ⟨buffer', fs', hformat, hholds, hlen'⟩ := format_spec (k := k) (s := { s with flashMemory := d }) hf ht
      (hlen.trans (congrArg FlashMemoryGeometry.writeBlockSize hissued.geometry).symm) isLastChunk
    have hp : nextPiece k { s with flashMemory := d } chunk total = p := by
      unfold nextPiece
      rw [show ({ s with flashMemory := d } : Flusher).geometry = s.geometry from hissued.geometry]
      rfl
    rw [hp] at hformat hholds hlen'
    let s₁ : Flusher := updatePageBufferCrc32 { s with flashMemory := d, fs := fs' } buffer' p.written
    have hrun : ∀ r, s₁.tryWriteIntoCurrentFlashMemoryPage buffer' = r → writePage k.implementor s file isLastChunk =
        if p.length = 0 then .panicked else if r.2 then .next (r.1.advance p.written) p.length else .returned r.1 := by
      intro h hwrite
      rcases h with ⟨s₂, ok⟩
      simp only [writePage, htry, hformat]
      split
      · rfl
      · rw [show updatePageBufferCrc32 _ buffer' p.written = s₁ from rfl, hwrite]
        cases ok with
        | false => rfl
        | true => rfl
    have hcontinue : ¬ Stops s.flashMemory n (p.readOp g) := fun hstops => hstops hread
    by_cases hzero : p.length = 0
    · exact Or.inl ⟨hzero, hcontinue, (hrun _ rfl).trans (if_pos hzero)⟩
    · let d' := (d.writeBlock page 0 buffer').1
      have hop : FlashOp.write page 0 buffer'.length = p.writeOp g := by
        rw [hlen', show ({ s with flashMemory := d } : Flusher).geometry = g from hissued.geometry]
        rfl
      have hissued' : s.flashMemory.Issued d' [p.readOp g, p.writeOp g] := by
        rw [← hop]
        exact hissued.trans (d.writeBlock_issued page 0 buffer')
      have hok : (d.writeBlock page 0 buffer').2 = true ↔ s.flashMemory.Succeeds (n + 1) (p.writeOp g) := by
        rw [FlashMemory.writeBlock_ok, hop, hissued.length]
        exact hissued.succeeds
      have hops : p.ops g = [p.readOp g, p.writeOp g] := by simp [Piece.ops, hzero]
      have htwo : Plan.issued (Stops s.flashMemory) n (p.ops g) = [p.readOp g, p.writeOp g] := by
        rw [hops, Plan.issued, if_neg hcontinue, Plan.issued, Plan.issued, ite_self]
      have hwrite : s₁.tryWriteIntoCurrentFlashMemoryPage buffer' =
          ({ s₁ with flashMemory := d' }, (d.writeBlock page 0 buffer').2) := by
        have hgeometry : s₁.geometry = g := hissued.geometry
        unfold tryWriteIntoCurrentFlashMemoryPage
        rw [hgeometry]
        rfl
      have hrun := hrun _ hwrite
      rw [if_neg hzero] at hrun
      by_cases hsucceeds : s.flashMemory.Succeeds (n + 1) (p.writeOp g)
      · rw [if_pos (hok.mpr hsucceeds)] at hrun
        refine Or.inr ⟨_, ?_, Or.inl ⟨?_, Nat.pos_of_ne_zero hzero, hrun, hholds, _, rfl⟩⟩
        · rw [htwo]
          exact hissued'
        · rw [hops]
          exact ⟨hcontinue, fun hstops => hstops hsucceeds, trivial⟩
      · rw [if_neg (mt hok.mp hsucceeds)] at hrun
        refine Or.inr ⟨_, ?_, Or.inr ⟨?_, hrun, _, rfl⟩⟩
        · rw [htwo]
          exact hissued'
        · rw [hops]
          exact fun hclear => hclear.2.1 hsucceeds
  · have hstops : Stops s.flashMemory n (p.readOp g) := hread
    refine Or.inr ⟨{ s with flashMemory := d }, ?_, Or.inr ⟨fun hclear => hclear.1 hstops, ?_, _, rfl⟩⟩
    · rw [Piece.ops, Plan.issued, if_pos hstops]
      exact hissued
    · simp only [writePage, htry]

end

theorem planOf_zero (k : Kind) (g : FlashMemoryGeometry) (f : FlushingState) :
    planOf k g f 0 = eraseOps g (lastErased f) f.flashMemoryAddress := by
  rw [planOf, Kind.pieces, if_pos rfl, opsOf, List.append_nil]

/-- The plan of a chunk begins with its first piece, and ends with it where the page has no room. -/
theorem planOf_pos (k : Kind) (g : FlashMemoryGeometry) (f : FlushingState) {n : Nat} (hn : 0 < n) :
    let p := k.piece g f.baseFlashMemoryAddress f.flashMemoryAddress n
    ∃ rest, planOf k g f n = eraseOps g (lastErased f) f.flashMemoryAddress ++ (p.ops g ++ rest) ∧
      (p.length = 0 → rest = []) := by
  intro p
  have hnone : eraseOps g (some (g.convertAddressIntoEraseBlockOffset f.flashMemoryAddress)) p.address = [] := if_pos rfl
  rw [planOf, Kind.pieces, if_neg (Nat.pos_iff_ne_zero.mp hn), opsOf, hnone, List.nil_append]
  refine ⟨_, rfl, fun hzero => ?_⟩
  have hzero' : (k.piece g f.baseFlashMemoryAddress f.flashMemoryAddress n).length = 0 := hzero
  rw [dif_pos hzero', opsOf]

/-! ## The loop -/

theorem not_stops_eraseOps (d : FlashMemory) (g : FlashMemoryGeometry) (last : Option Nat) (address : Nat) :
    ∀ op ∈ eraseOps g last address, ∀ n, ¬ Stops d n op := by
  intro op hop n
  unfold eraseOps at hop
  split at hop
  · cases hop
  · rw [List.mem_singleton.mp hop]
    exact not_false

theorem stops_of_issued {d d' : FlashMemory} {ops : List FlashOp} (h : d.Issued d' ops) (n : Nat) (op : FlashOp) :
    Stops d' n op ↔ Stops d n op := by
  cases op with
  | erase id => exact Iff.rfl
  | read id offset length => exact not_congr h.succeeds
  | write id offset length => exact not_congr h.succeeds

def endAddress (address : Nat) (ps : List Piece) : Nat := ps.foldl (fun a p => u32 (a + p.written)) address

def endErased (g : FlashMemoryGeometry) (last : Option Nat) (ps : List Piece) : Option Nat :=
  ps.foldl (fun _ p => some (g.convertAddressIntoEraseBlockOffset p.address)) last

section
variable {k : Kind} {s : Flusher} {file : File} {chunk : List UInt8} {total fuel : Nat}

theorem writeFile_succ (im : Implementor) (isLastChunk : Bool) (hlt : total < chunk.length) :
    writeFile im file chunk.length isLastChunk (fuel + 1) s total =
      match writePage im s.preErase file isLastChunk with
      | .next s' nProcessed => writeFile im file chunk.length isLastChunk fuel s' (total + nProcessed)
      | .returned s' => .returned s'
      | .panicked => .panicked
      | .exhausted => .exhausted := by
  have hend : ¬ total = chunk.length := by omega
  have hgt : ¬ total > chunk.length := by omega
  exact (if_neg hend).trans (if_neg hgt)

theorem nextPiece_preErase : nextPiece k s.preErase chunk total = nextPiece k s chunk total := by
  have e := preErase_spec s
  unfold nextPiece
  rw [e.geometry, e.baseAddress, e.address]

/-- A round of the loop, with the erase before it. -/
theorem round_carries_out (hf : Holds s.fs file chunk total) (hlt : total < chunk.length)
    (hongoing : s.flushingState.ongoing = true) (isLastChunk : Bool) :
    let f := s.flushingState
    let d := s.flashMemory
    let p := nextPiece k s chunk total
    let E := eraseOps s.geometry (lastErased f) f.flashMemoryAddress
    let n := d.trace.length + E.length
    let r := writePage k.implementor s.preErase file isLastChunk
    (p.length = 0 ∧ ¬ Stops d n (p.readOp s.geometry) ∧ r = .panicked) ∨
    ∃ s', d.Issued s'.flashMemory (E ++ Plan.issued (Stops d) n (p.ops s.geometry)) ∧ s'.flushingState.ongoing = true ∧
      s'.flushingState.baseFlashMemoryAddress = f.baseFlashMemoryAddress ∧
      (Plan.Clear (Stops d) n (p.ops s.geometry) ∧ 0 < p.length ∧ r = .next s' p.length ∧
          Holds s'.fs file chunk (total + p.length) ∧
          s'.flushingState.flashMemoryAddress = u32 (f.flashMemoryAddress + p.written) ∧
          lastErased s'.flushingState = some (s.geometry.convertAddressIntoEraseBlockOffset f.flashMemoryAddress) ∨
        ¬ Plan.Clear (Stops d) n (p.ops s.geometry) ∧ r = .returned s' ∧
          s'.flushingState.flashMemoryAddress = f.flashMemoryAddress) := by
  intro f d p E n r
  have e := preErase_spec s
  have herase : d.Issued s.preErase.flashMemory E := preErase_issued s
  have hn : s.preErase.flashMemory.trace.length = n := herase.length
  have hp : nextPiece k s.preErase chunk total = p := nextPiece_preErase
  have hround := writePage_carries_out (k := k) (s := s.preErase) (e.fs ▸ hf) hlt isLastChunk
  dsimp only at hround
  rw [hp, hn, e.geometry, stops_of_issued herase, Plan.clear_congr (stops_of_issued herase),
    Plan.issued_congr (stops_of_issued herase)] at hround
  rcases hround with hpanic | ⟨s', hissued, ⟨hclear, hpos, hnext, hholds, crc, hcrc⟩ | ⟨hstopped, hreturned, crc, hcrc⟩⟩
  · exact Or.inl hpanic
  · refine Or.inr ⟨s', herase.trans hissued, ?_, ?_, Or.inl ⟨hclear, hpos, hnext, hholds, ?_, ?_⟩⟩
    · rw [hcrc]
      exact e.ongoing.trans hongoing
    · rw [hcrc]
      exact e.baseAddress
    · rw [hcrc, ← e.address]
    · have hlast : lastErased s'.flushingState = some s.preErase.flushingState.lastErasedBlockOffset := by
        rw [lastErased, hcrc]
        exact if_pos (e.ongoing.trans hongoing)
      rw [hlast, e.lastErased]
  · refine Or.inr ⟨s', herase.trans hissued, ?_, ?_, Or.inr ⟨hstopped, hreturned, ?_⟩⟩
    · rw [hcrc]
      exact e.ongoing.trans hongoing
    · rw [hcrc]
      exact e.baseAddress
    · rw [hcrc, ← e.address]

/-- The pieces that are left of a chunk: the next one, and those behind it. -/
theorem pieces_next (hlt : total < chunk.length) :
    let p := nextPiece k s chunk total
    k.pieces s.geometry s.flushingState.baseFlashMemoryAddress s.flushingState.flashMemoryAddress (chunk.length - total) =
      p :: if p.length = 0 then [] else
        k.pieces s.geometry s.flushingState.baseFlashMemoryAddress (u32 (s.flushingState.flashMemoryAddress + p.written))
          (chunk.length - (total + p.length)) := by
  intro p
  rw [Kind.pieces, if_neg (by omega), ← Nat.sub_sub]
  rfl

/-- The loop carries the plan out, up to the first page that cannot be read or written. -/
theorem writeFile_carries_out (hf : total < chunk.length → Holds s.fs file chunk total) (htotal : total ≤ chunk.length)
    (hongoing : s.flushingState.ongoing = true) (hfuel : chunk.length < fuel + total) (isLastChunk : Bool) :
    let f := s.flushingState
    let ps := k.pieces s.geometry f.baseFlashMemoryAddress f.flashMemoryAddress (chunk.length - total)
    let ops := opsOf s.geometry (lastErased f) ps
    let n := s.flashMemory.trace.length
    let r := writeFile k.implementor file chunk.length isLastChunk fuel s total
    ((∃ p ∈ ps, p.length = 0) ∧ Plan.Clear (Stops s.flashMemory) n ops ∧ r = .panicked) ∨
    ∃ s', s.flashMemory.Issued s'.flashMemory (Plan.issued (Stops s.flashMemory) n ops) ∧
      s'.flushingState.ongoing = true ∧
      (Plan.Clear (Stops s.flashMemory) n ops ∧ (∀ p ∈ ps, 0 < p.length) ∧ r = .next s' isLastChunk ∧
          s'.flushingState.baseFlashMemoryAddress = f.baseFlashMemoryAddress ∧
          s'.flushingState.flashMemoryAddress = endAddress f.flashMemoryAddress ps ∧
          lastErased s'.flushingState = endErased s.geometry (lastErased f) ps ∨
        ¬ Plan.Clear (Stops s.flashMemory) n ops ∧ r = .returned s') := by
  induction fuel generalizing s total with
  | zero => omega
  | succ fuel ih =>
    intro f ps ops n r
    by_cases hend : total = chunk.length
    · have hps : ps = [] := by
        show k.pieces _ _ _ _ = []
        rw [hend, Nat.sub_self, Kind.pieces, if_pos rfl]
      have hops : ops = [] := by
        show opsOf _ _ ps = []
        rw [hps, opsOf]
      have hr : r = .next s isLastChunk := if_pos hend
      rw [hops, hps]
      exact Or.inr ⟨s, .refl _, hongoing, Or.inl ⟨trivial, List.forall_mem_nil _, hr, rfl, rfl, rfl⟩⟩
    · have hlt : total < chunk.length := Nat.lt_of_le_of_ne htotal hend
      let p := nextPiece k s chunk total
      let E := eraseOps s.geometry (lastErased f) f.flashMemoryAddress
      let last := some (s.geometry.convertAddressIntoEraseBlockOffset f.flashMemoryAddress)
      have hE : Plan.Clear (Stops s.flashMemory) n E := Plan.clear_of_forall (not_stops_eraseOps s.flashMemory _ _ _) n
      have hps : ps = p :: if p.length = 0 then [] else _ := pieces_next hlt
      have hops : ops = E ++ (p.ops s.geometry ++ opsOf s.geometry last ps.tail) := by
        show opsOf _ _ ps = _
        rw [hps, opsOf, List.append_assoc]
        rfl
      have hr : r = _ := writeFile_succ k.implementor isLastChunk hlt
      rw [hops, Plan.clear_append, and_iff_right hE, Plan.clear_append, Plan.issued_append hE]
      rcases round_carries_out (k := k) (hf hlt) hlt hongoing isLastChunk with ⟨hzero, hcontinue, hpanic⟩ |
          ⟨s', hissued, hongoing', hbase, ⟨hclear, hpos, hnext, hholds, haddress, hlast⟩ | ⟨hstopped, hreturned, -⟩⟩
      · -- the page has no room: the program panics
        rw [hpanic] at hr
        rw [hps, if_pos hzero, List.tail_cons]
        refine Or.inl ⟨⟨p, List.mem_cons_self, hzero⟩, ⟨?_, trivial⟩, hr⟩
        rw [Piece.ops, if_pos hzero]
        exact ⟨hcontinue, trivial⟩
      · -- the round is over, and the rest of the chunk follows
        rw [hnext] at hr
        have hr : r = writeFile k.implementor file chunk.length isLastChunk fuel s' (total + p.length) := hr
        rw [Plan.issued_of_clear hclear] at hissued
        have hgeometry : s'.geometry = s.geometry := hissued.geometry
        have htail : ps.tail = k.pieces s.geometry f.baseFlashMemoryAddress (u32 (f.flashMemoryAddress + p.written))
            (chunk.length - (total + p.length)) := by
          rw [hps, if_neg (Nat.pos_iff_ne_zero.mp hpos)]
          rfl
        have hfold : endAddress f.flashMemoryAddress ps = endAddress (u32 (f.flashMemoryAddress + p.written)) ps.tail := by
          rw [hps]
          rfl
        have hfold' : endErased s.geometry (lastErased f) ps = endErased s.geometry last ps.tail := by
          rw [hps]
          rfl
        have hrest := ih (fun _ => hholds) hholds.inside hongoing' (by omega)
        dsimp only at hrest
        rw [hgeometry, hbase, haddress, hlast, ← htail, hissued.length, List.length_append, ← Nat.add_assoc, ← hr,
          Plan.clear_congr (stops_of_issued hissued), Plan.issued_congr (stops_of_issued hissued)] at hrest
        rw [and_iff_right hclear, hfold, hfold', Plan.issued_append hclear, ← List.append_assoc]
        rcases hrest with ⟨⟨q, hq, hzero⟩, hclear', hpanic⟩ | ⟨s'', hissued', hongoing'', hcases⟩
        · exact Or.inl ⟨⟨q, List.mem_of_mem_tail hq, hzero⟩, hclear', hpanic⟩
        · refine Or.inr ⟨s'', hissued.trans hissued', hongoing'', hcases.imp_left fun h => ⟨h.1, ?_, h.2.2⟩⟩
          intro q hq
          rw [hps] at hq
          rcases List.mem_cons.mp hq with rfl | hq
          · exact hpos
          · exact h.2.1 q (by rw [hps]; exact hq)
      · -- a page cannot be read or written
        rw [hreturned] at hr
        rw [Plan.issued_append_of_not_clear hstopped]
        exact Or.inr ⟨s', hissued, hongoing', Or.inr ⟨fun hclear => hstopped hclear.1, hr⟩⟩

end

/-! ## The whole call -/

/-- The state in which the loop of a call is entered; `none` when the file is in no partition. -/
def enter (memoryPartitionTable : File → Option Nat) (s : Flusher) (c : Call) : Option Flusher :=
  (start memoryPartitionTable { s with fs := c.fs } c.file).map fun s =>
    let s := s.preErase.setOngoing
    { s with fs := (c.file.seek (c.file.getCurrentPosition s.fs).1 0 .start).1 }

def writeChunk (k : Kind) (s : Flusher) (c : Call) : Flow Bool :=
  writeFile k.implementor c.file c.chunk.length c.isLastChunk (c.chunk.length + 1) s 0

section
variable {k : Kind} {memoryPartitionTable : File → Option Nat} {s s' : Flusher} {c : Call}

theorem HandedOver.getCurrentPosition {fs : SingleBufferRamFileSystem} {file : File} {chunk : List UInt8}
    (h : HandedOver fs file chunk) : file.getCurrentPosition fs = (fs, chunk.length) := by
  rcases h with h | ⟨rfl, content, h⟩
  · exact h.getCurrentPosition
  · exact h.getCurrentPosition

theorem preErase_fs (s : Flusher) : s.preErase.fs = s.fs := (preErase_spec s).fs

theorem start_fs (memoryPartitionTable : File → Option Nat) (s : Flusher) (file : File) (fs : SingleBufferRamFileSystem) :
    start memoryPartitionTable { s with fs := fs } file =
      (start memoryPartitionTable s file).map fun s => { s with fs := fs } := by
  unfold start
  by_cases hongoing : s.flushingState.ongoing = true
  · simp [hongoing]
  · simp only [hongoing, Bool.false_eq_true, if_false, Option.map_map]
    rfl

theorem call_eq : call k memoryPartitionTable s c =
    match enter memoryPartitionTable s c with
    | none => some { s with fs := c.fs }
    | some s' =>
      match writeChunk k s' c with
      | .next s' isLastChunk => finish k.implementor s' c.file isLastChunk
      | .returned s' => some s'
      | .panicked => none
      | .exhausted => none := by
  unfold call onFileBufferingFinished enter
  rw [start_fs]
  cases start memoryPartitionTable s c.file with
  | none => rfl
  | some s₁ =>
    have hfs : (preErase { s₁ with fs := c.fs }).setOngoing.fs = c.fs := preErase_fs { s₁ with fs := c.fs }
    simp only [Option.map_some, hfs, c.handedOver.getCurrentPosition]
    rfl

/-- What is done before the loop: the transfer is started where it is not under way, a block is erased. -/
theorem enter_spec (h : enter memoryPartitionTable s c = some s') :
    ∃ s₁, start memoryPartitionTable s c.file = some s₁ ∧ s₁.flashMemory = s.flashMemory ∧
      s.flashMemory.Issued s'.flashMemory
        (eraseOps s.geometry (lastErased s₁.flushingState) s₁.flushingState.flashMemoryAddress) ∧
      s'.flushingState.baseFlashMemoryAddress = s₁.flushingState.baseFlashMemoryAddress ∧
      s'.flushingState.flashMemoryAddress = s₁.flushingState.flashMemoryAddress ∧ s'.flushingState.ongoing = true ∧
      s'.flushingState.lastErasedBlockOffset =
        s.geometry.convertAddressIntoEraseBlockOffset s₁.flushingState.flashMemoryAddress ∧
      (0 < c.chunk.length → Holds s'.fs c.file c.chunk 0) := by
  unfold enter at h
  rw [start_fs] at h
  obtain ⟨s₂, hs₂, rfl⟩ := Option.map_eq_some_iff.mp h
  obtain ⟨s₁, hstart, rfl⟩ := Option.map_eq_some_iff.mp hs₂
  have hflash : s₁.flashMemory = s.flashMemory := by
    unfold start at hstart
    split at hstart
    · rw [Option.some_inj.mp hstart]
    · obtain ⟨address, -, rfl⟩ := Option.map_eq_some_iff.mp hstart
      rfl
  have hgeometry : s₁.geometry = s.geometry := congrArg FlashMemory.geometry hflash
  have e := preErase_spec { s₁ with fs := c.fs }
  have herase := preErase_issued { s₁ with fs := c.fs }
  refine ⟨s₁, hstart, hflash, ?_, e.baseAddress, e.address, rfl, ?_, ?_⟩
  · rw [← hgeometry, ← hflash]
    exact herase
  · rw [← hgeometry]
    exact e.lastErased
  · intro hlength
    have hholds : Holds c.fs c.file c.chunk c.chunk.length := by
      rcases c.handedOver with h | ⟨hnil, -⟩
      · exact h
      · rw [hnil] at hlength
        cases hlength
    have hfs : (preErase { s₁ with fs := c.fs }).setOngoing.fs = c.fs := e.fs
    dsimp only
    rw [hfs, hholds.getCurrentPosition, hholds.rewind]
    exact hholds.at_cursor (Nat.zero_le _)

/-- A call in a partition carries its plan out: where no page fails the loop comes to its end,
    and the function returns from inside it otherwise. -/
theorem writeChunk_carries_out (h : enter memoryPartitionTable s c = some s') :
    let ops := callOps k memoryPartitionTable s c
    let n := s.flashMemory.trace.length
    let ps := k.pieces s.geometry s'.flushingState.baseFlashMemoryAddress s'.flushingState.flashMemoryAddress c.chunk.length
    ((∃ p ∈ ps, p.length = 0) ∧ Plan.Clear (Stops s.flashMemory) n ops ∧ writeChunk k s' c = .panicked) ∨
    ∃ s'', s.flashMemory.Issued s''.flashMemory (Plan.issued (Stops s.flashMemory) n ops) ∧
      s''.flushingState.ongoing = true ∧
      (Plan.Clear (Stops s.flashMemory) n ops ∧ (∀ p ∈ ps, 0 < p.length) ∧
          writeChunk k s' c = .next s'' c.isLastChunk ∧
          s''.flushingState.baseFlashMemoryAddress = s'.flushingState.baseFlashMemoryAddress ∧
          s''.flushingState.flashMemoryAddress = endAddress s'.flushingState.flashMemoryAddress ps ∧
          lastErased s''.flushingState = endErased s.geometry (lastErased s'.flushingState) ps ∨
        ¬ Plan.Clear (Stops s.flashMemory) n ops ∧ writeChunk k s' c = .returned s'') := by
  intro ops n ps
  obtain ⟨s₁, hstart, hflash, hissued, hbase, haddress, hongoing, hlast, hholds⟩ := enter_spec h
  have hgeometry : s'.geometry = s.geometry := hissued.geometry
  have hops : ops = eraseOps s.geometry (lastErased s₁.flushingState) s₁.flushingState.flashMemoryAddress ++
      opsOf s.geometry (lastErased s'.flushingState) ps := by
    have hlast' : lastErased s'.flushingState =
        some (s.geometry.convertAddressIntoEraseBlockOffset s₁.flushingState.flashMemoryAddress) := by
      rw [lastErased, if_pos hongoing, hlast]
    show callOps k memoryPartitionTable s c = _
    rw [callOps, hstart, hlast']
    show planOf k s₁.geometry _ _ = _
    rw [planOf, show s₁.geometry = s.geometry from congrArg FlashMemory.geometry hflash, ← hbase, ← haddress]
  have herase := Plan.clear_of_forall (not_stops_eraseOps s.flashMemory s.geometry (lastErased s₁.flushingState)
    s₁.flushingState.flashMemoryAddress) n
  generalize eraseOps s.geometry (lastErased s₁.flushingState) s₁.flushingState.flashMemoryAddress = E at *
  have hfuel : c.chunk.length < c.chunk.length + 1 + 0 := Nat.lt_succ_self _
  have hloop := writeFile_carries_out (k := k) (s := s') hholds (Nat.zero_le _) hongoing hfuel c.isLastChunk
  dsimp only at hloop
  rw [Nat.sub_zero, hgeometry, hissued.length, Plan.clear_congr (stops_of_issued hissued),
    Plan.issued_congr (stops_of_issued hissued)] at hloop
  rw [hops, Plan.clear_append, and_iff_right herase, Plan.issued_append herase]
  rcases hloop with hpanic | ⟨s'', hissued', hcases⟩
  · exact Or.inl hpanic
  · exact Or.inr ⟨s'', hissued.trans hissued', hcases⟩

end

/-! ## What follows the loop -/

/-- The next read of the verification; it goes on behind what was read unless the read fails. -/
theorem readFlashMemoryCrc32_succ (fuel : Nat) (s : Flusher) {a : Nat} (ha : a ≠ s.flushingState.flashMemoryAddress) :
    let length := min (u32Sub s.flushingState.flashMemoryAddress a) s.geometry.writeBlockSize
    ∃ d, s.flashMemory.Issued d [.read (s.geometry.convertAddressIntoWriteBlockOffset a)
        (s.geometry.convertAddressIntoWriteBlockInnerOffset a) length] ∧
      (readFlashMemoryCrc32 (fuel + 1) s a = { s with flashMemory := d } ∨
        ∃ f, SamePlace s.flushingState f ∧ readFlashMemoryCrc32 (fuel + 1) s a =
          readFlashMemoryCrc32 fuel { s with flashMemory := d, flushingState := f } (u32 (a + length))) := by
  intro length
  have hissued := s.flashMemory.readBlock_issued (s.geometry.convertAddressIntoWriteBlockOffset a)
    (s.geometry.convertAddressIntoWriteBlockInnerOffset a) length
  have hrun : readFlashMemoryCrc32 (fuel + 1) s a = _ := if_neg ha
  generalize hr : s.flashMemory.readBlock (s.geometry.convertAddressIntoWriteBlockOffset a)
    (s.geometry.convertAddressIntoWriteBlockInnerOffset a) length = r at hissued
  dsimp only at hrun
  rw [hr] at hrun
  obtain ⟨d, buffer⟩ := r
  cases buffer with
  | none => exact ⟨d, hissued, Or.inl hrun⟩
  | some buffer => exact ⟨d, hissued, Or.inr ⟨_, ⟨_, rfl⟩, hrun⟩⟩

/-- The verification only reads. -/
theorem readFlashMemoryCrc32_issued (fuel : Nat) (s : Flusher) (a : Nat) :
    ∃ ops, s.flashMemory.Issued (readFlashMemoryCrc32 fuel s a).flashMemory ops ∧
      ∀ op ∈ ops, ∃ id offset length, op = .read id offset length := by
  induction fuel generalizing s a with
  | zero => exact ⟨[], .refl _, by simp⟩
  | succ fuel ih =>
    by_cases ha : a = s.flushingState.flashMemoryAddress
    · have hstop : readFlashMemoryCrc32 (fuel + 1) s a = s := if_pos ha
      rw [hstop]
      exact ⟨[], .refl _, by simp⟩
    · obtain ⟨d, hissued, hrun | ⟨f, -, hrun⟩⟩ := readFlashMemoryCrc32_succ fuel s ha
      · rw [hrun]
        exact ⟨_, hissued, fun op hop => ⟨_, _, _, List.mem_singleton.mp hop⟩⟩
      · rw [hrun]
        obtain ⟨ops, hrest, hreads⟩ := ih { s with flashMemory := d, flushingState := f } _
        refine ⟨_, hissued.trans hrest, fun op hop => ?_⟩
        rcases List.mem_append.mp hop with hop | hop
        · exact ⟨_, _, _, List.mem_singleton.mp hop⟩
        · exact hreads op hop

theorem updateFlashMemoryCrc32_issued (s : Flusher) :
    ∃ ops, s.flashMemory.Issued s.updateFlashMemoryCrc32.flashMemory ops ∧
      ∀ op ∈ ops, ∃ id offset length, op = .read id offset length := by
  unfold updateFlashMemoryCrc32
  split
  · exact ⟨[], .refl _, by simp⟩
  · exact readFlashMemoryCrc32_issued _ _ _

/-- Nothing is erased any more, and the first page of the file is all that is written. -/
structure Closing (base : Nat) (g : FlashMemoryGeometry) (ops : List FlashOp) : Prop where
  erase : ∀ id, .erase id ∉ ops
  write : ∀ id offset length, .write id offset length ∈ ops → id = g.convertAddressIntoWriteBlockOffset base

theorem closing_of_reads {base : Nat} {g : FlashMemoryGeometry} {ops : List FlashOp}
    (h : ∀ op ∈ ops, ∃ id offset length, op = .read id offset length) : Closing base g ops := by
  refine ⟨fun id hmem => ?_, fun id offset length hmem => ?_⟩
  · obtain ⟨_, _, _, heq⟩ := h _ hmem
    cases heq
  · obtain ⟨_, _, _, heq⟩ := h _ hmem
    cases heq

theorem Closing.append {base : Nat} {g : FlashMemoryGeometry} {ops ops' : List FlashOp} (h : Closing base g ops)
    (h' : Closing base g ops') : Closing base g (ops ++ ops') := by
  refine ⟨fun id hmem => ?_, fun id offset length hmem => ?_⟩
  · exact (List.mem_append.mp hmem).elim (h.erase id) (h'.erase id)
  · exact (List.mem_append.mp hmem).elim (h.write id offset length) (h'.write id offset length)

section
variable {k : Kind} {s s' : Flusher} {file : File}

theorem postChunkFlushed_spec (h : k.implementor.onFileBufferingFinishedPostChunkFlushed s file true = some s') :
    ∃ ops, s.flashMemory.Issued s'.flashMemory ops ∧
      Closing s.flushingState.baseFlashMemoryAddress s.geometry ops := by
  cases k with
  | flashMemory =>
    obtain rfl := Option.some_inj.mp h
    exact ⟨[], .refl _, closing_of_reads (by simp)⟩
  | salute =>
    change saluteOnFileBufferingFinishedPostChunkFlushed s file true = some s' at h
    unfold saluteOnFileBufferingFinishedPostChunkFlushed at h
    simp only [Bool.not_true, Bool.false_eq_true, if_false] at h
    generalize hpage : s.geometry.convertAddressIntoWriteBlockOffset s.flushingState.baseFlashMemoryAddress = page at h ⊢
    have hread := s.flashMemory.readBlock_issued page 0 s.geometry.writeBlockSize
    generalize s.flashMemory.readBlock page 0 s.geometry.writeBlockSize = r at h hread
    obtain ⟨d, buffer⟩ := r
    cases buffer with
    | none => cases h
    | some buffer =>
      dsimp only at h
      generalize splice buffer 0 _ = header at h
      have hwrite := d.writeBlock_issued page 0 header
      generalize d.writeBlock page 0 header = w at h hwrite
      obtain ⟨d', ok⟩ := w
      cases ok with
      | false => cases h
      | true =>
        obtain rfl := Option.some_inj.mp h
        refine ⟨_, hread.trans hwrite, fun id hmem => ?_, fun id offset length hmem => ?_⟩
        · simp at hmem
        · simp only [List.cons_append, List.nil_append, List.mem_cons, reduceCtorEq, FlashOp.write.injEq,
            List.not_mem_nil, or_false, false_or] at hmem
          rw [hmem.1, hpage]

/-- After a last chunk the state is as it was at first. -/
theorem finish_spec {isLastChunk : Bool} (h : finish k.implementor s file isLastChunk = some s') :
    ∃ ops, s.flashMemory.Issued s'.flashMemory ops ∧ Closing s.flushingState.baseFlashMemoryAddress s.geometry ops ∧
      s'.flushingState = if isLastChunk then {} else s.flushingState := by
  unfold finish at h
  cases isLastChunk with
  | false =>
    have hhook : k.implementor.onFileBufferingFinishedPostChunkFlushed s file false = some s := by cases k <;> rfl
    simp only [Bool.false_eq_true, if_false, hhook, Option.map_some, Option.some_inj] at h
    subst h
    exact ⟨[], .refl _, closing_of_reads (by simp), rfl⟩
  | true =>
    obtain ⟨s₂, hhook, rfl⟩ := Option.map_eq_some_iff.mp h
    change k.implementor.onFileBufferingFinishedPostChunkFlushed s.updateFlashMemoryCrc32 file true = some s₂ at hhook
    obtain ⟨ops, hreads, hall⟩ := updateFlashMemoryCrc32_issued s
    have hsame := updateFlashMemoryCrc32_same s
    obtain ⟨ops', hissued, hclosing⟩ := postChunkFlushed_spec hhook
    rw [show s.updateFlashMemoryCrc32.geometry = s.geometry from hsame.geometry, hsame.baseAddress] at hclosing
    exact ⟨_, hreads.trans hissued, (closing_of_reads hall).append hclosing, rfl⟩

end

/-- What a call that returns has done. -/
theorem call_some {k : Kind} {memoryPartitionTable : File → Option Nat} {s s' : Flusher} {c : Call}
    (h : call k memoryPartitionTable s c = some s') :
    let ops := callOps k memoryPartitionTable s c
    let n := s.flashMemory.trace.length
    start memoryPartitionTable s c.file = none ∧ ops = [] ∧ s' = { s with fs := c.fs } ∨
    ∃ f, ops = planOf k s.geometry f c.chunk.length ∧
      (Plan.Clear (Stops s.flashMemory) n ops ∧
          (0 < c.chunk.length →
            0 < (k.piece s.geometry f.baseFlashMemoryAddress f.flashMemoryAddress c.chunk.length).length) ∧
          (∃ closing, s.flashMemory.Issued s'.flashMemory (ops ++ closing)) ∧
          (if c.isLastChunk then s'.flushingState = {} else s'.flushingState.ongoing = true) ∨
        ¬ Plan.Clear (Stops s.flashMemory) n ops ∧
          s.flashMemory.Issued s'.flashMemory (Plan.issued (Stops s.flashMemory) n ops) ∧
          s'.flushingState.ongoing = true) := by
  intro ops n
  cases henter : enter memoryPartitionTable s c with
  | none =>
    rw [call_eq, henter] at h
    have hstart : start memoryPartitionTable s c.file = none := by
      unfold enter at henter
      rw [start_fs] at henter
      simpa using henter
    refine Or.inl ⟨hstart, ?_, (Option.some_inj.mp h).symm⟩
    show callOps k memoryPartitionTable s c = []
    rw [callOps, hstart]
  | some s₀ =>
    obtain ⟨s₁, hstart, hflash, -, hbase, haddress, -⟩ := enter_spec henter
    have hgeometry : s₁.geometry = s.geometry := congrArg FlashMemory.geometry hflash
    have hops : ops = planOf k s.geometry s₁.flushingState c.chunk.length := by
      show callOps k memoryPartitionTable s c = _
      rw [callOps, hstart, ← hgeometry]
    refine Or.inr ⟨s₁.flushingState, hops, ?_⟩
    rw [← hbase, ← haddress]
    rw [call_eq, henter] at h
    rcases writeChunk_carries_out (k := k) henter with ⟨-, -, hpanic⟩ | ⟨s'', hissued, hongoing,
        ⟨hclear, hpos, hnext, -⟩ | ⟨hstopped, hreturned⟩⟩
    · simp only [hpanic] at h
      cases h
    · simp only [hnext] at h
      obtain ⟨closing, hclosing, -, hstate⟩ := finish_spec h
      rw [Plan.issued_of_clear hclear] at hissued
      refine Or.inl ⟨hclear, fun hlength => hpos _ ?_, ⟨closing, hissued.trans hclosing⟩, ?_⟩
      · rw [Kind.pieces, if_neg (Nat.pos_iff_ne_zero.mp hlength)]
        exact List.mem_cons_self
      · rw [hstate]
        split
        · rfl
        · exact hongoing
    · simp only [hreturned] at h
      obtain rfl := Option.some_inj.mp h
      exact Or.inr ⟨hstopped, hissued, hongoing⟩

/-- The file `show` in the buffer of the small flusher. -/
def showCall (chunk : List UInt8) (isLastChunk : Bool) (hfits : chunk.length ≤ 16) : Call :=
  ⟨showFile, refill smallFlusher.fs showFile chunk, chunk, isLastChunk,
    Or.inl (smallFlusher_between.file.refill hfits).1⟩

end Esp32Cam.Bft.Flusher
