/-
  Esp32Cam.Bft.FlashMemoryTransferImplementor — flushing a buffered file into flash.

  `onFileBufferingFinished` writes the bytes before the file's cursor, page by page:
  erase the block when it is a new one, read the page, let `formatFlashMemoryPageContent`
  put bytes of the file into the copy, write the page back and advance
  `flashMemoryAddress`. The state between calls is `FlushingState`. The two virtual
  functions are the fields of `Implementor`; `flashMemoryTransferImplementor` and
  `saluteFlashMemoryTransferImplementor` are the two classes, the second of which keeps
  four bytes in front of the file and stores a length there after the last chunk.

  A panic ends the program: the result is `none`. The loops run on fuel, which is never
  used up (`writeFile_ne_exhausted`).
-/

import Esp32Cam.Bft.FileSystem
import Esp32Cam.Sys.FlashMemory

namespace Esp32Cam.Bft

open Esp32Cam.Lib Esp32Cam.Ut Esp32Cam.Sys

/-! ## State -/

structure Crc32CalculationState where
  bufferReadChecksum : Crc32 := {}
  flashMemoryReadChecksum : Crc32 := {}
  deriving DecidableEq, Repr

def Crc32CalculationState.isMatch (c : Crc32CalculationState) : Bool :=
  c.bufferReadChecksum.checksum == c.flashMemoryReadChecksum.checksum

structure FlushingState where
  baseFlashMemoryAddress : Nat := 0
  flashMemoryAddress : Nat := 0
  lastErasedBlockOffset : Nat := 0
  ongoing : Bool := false
  crc32CalculationState : Crc32CalculationState := {}
  deriving DecidableEq, Repr

def FlushingState.isFirstChunk (f : FlushingState) : Bool := f.baseFlashMemoryAddress == f.flashMemoryAddress

/-- The implementor's state, its flash memory, and the file system behind the files it is given. -/
structure Flusher where
  flashMemory : FlashMemory
  flushingState : FlushingState
  fs : SingleBufferRamFileSystem

namespace Flusher

def geometry (s : Flusher) : FlashMemoryGeometry := s.flashMemory.geometry

/-- The result of formatting a page: the page, how much of it is written, how much of the file is read. -/
abbrev Page := List UInt8 × Nat × Nat

/-! ## The virtual functions -/

structure Implementor where
  formatFlashMemoryPageContent : Flusher → List UInt8 → File → Bool → Flusher × Page
  onFileBufferingFinishedPostChunkFlushed : Flusher → File → Bool → Option Flusher

/-- The bytes of the file that fit are put into the page from `pageBufferInnerOffset` on. -/
def readIntoPage (s : Flusher) (pageBuffer : List UInt8) (file : File) (pageBufferInnerOffset maxWriteSize nHeader : Nat) :
    Flusher × Page :=
  if maxWriteSize > 0 then
    let (fs, data) := file.read s.fs maxWriteSize
    ({ s with fs := fs }, splice pageBuffer pageBufferInnerOffset data, data.length + nHeader, data.length)
  else (s, pageBuffer, 0, 0)

def formatFlashMemoryPageContent (s : Flusher) (pageBuffer : List UInt8) (file : File) (_ : Bool) : Flusher × Page :=
  let pageBufferInnerOffset :=
    s.geometry.convertAddressIntoWriteBlockInnerOffset s.flushingState.baseFlashMemoryAddress
  s.readIntoPage pageBuffer file pageBufferInnerOffset (s.geometry.writeBlockSize - pageBufferInnerOffset) 0

def flashMemoryTransferImplementor : Implementor where
  formatFlashMemoryPageContent := formatFlashMemoryPageContent
  onFileBufferingFinishedPostChunkFlushed s _ _ := some s

def kFileHeaderOffset : Nat := 4
def kSaluteIsLittleEndian : Bool := false
def kCurrentIsLittleEndian : Bool := false

/-- The bytes of a number in the order of the target. -/
def endiannessAwareRepresentation (currentIsLittleEndian targetIsLittleEndian : Bool) (n : Nat) : List UInt8 :=
  if currentIsLittleEndian = targetIsLittleEndian then le32 n else (le32 n).reverse

def saluteFormatFlashMemoryPageContent (s : Flusher) (pageBuffer : List UInt8) (file : File) (isLastChunk : Bool) :
    Flusher × Page :=
  if s.flushingState.isFirstChunk then
    s.readIntoPage pageBuffer file kFileHeaderOffset (u32Sub s.geometry.writeBlockSize kFileHeaderOffset)
      kFileHeaderOffset
  else s.formatFlashMemoryPageContent pageBuffer file isLastChunk

def saluteOnFileBufferingFinishedPostChunkFlushed (s : Flusher) (_ : File) (isLastChunk : Bool) : Option Flusher :=
  if !isLastChunk then some s
  else
    let baseFlashMemoryPageOffset :=
      s.geometry.convertAddressIntoWriteBlockOffset s.flushingState.baseFlashMemoryAddress
    match s.flashMemory.readBlock baseFlashMemoryPageOffset 0 s.geometry.writeBlockSize with
    | (_, none) => none
    | (flashMemory, some pageBuffer) =>
      let overallFileSize := u32Sub s.flushingState.flashMemoryAddress kFileHeaderOffset
      let header := endiannessAwareRepresentation kCurrentIsLittleEndian kSaluteIsLittleEndian overallFileSize
      match flashMemory.writeBlock baseFlashMemoryPageOffset 0 (splice pageBuffer 0 header) with
      | (_, false) => none
      | (flashMemory, true) => some { s with flashMemory := flashMemory }

def saluteFlashMemoryTransferImplementor : Implementor where
  formatFlashMemoryPageContent := saluteFormatFlashMemoryPageContent
  onFileBufferingFinishedPostChunkFlushed := saluteOnFileBufferingFinishedPostChunkFlushed

/-- The one partition of the Salute flash, the file `show`. -/
def saluteFlashMemoryPartitionTable (file : File) : Option Nat :=
  if file.fileNameHash = calculateCrc32 [0x73, 0x68, 0x6F, 0x77] then some 0 else none

/-! ## One page -/

def shouldEraseCurrentFlashMemoryBlock (s : Flusher) : Bool :=
  !s.flushingState.ongoing ||
    s.flushingState.lastErasedBlockOffset != s.geometry.convertAddressIntoEraseBlockOffset s.flushingState.flashMemoryAddress

def tryEraseCurrentFlashMemoryBlock (s : Flusher) : Flusher × Bool :=
  let eraseBlockOffset := s.geometry.convertAddressIntoEraseBlockOffset s.flushingState.flashMemoryAddress
  let (flashMemory, ok) := s.flashMemory.eraseBlock eraseBlockOffset
  ({ s with
      flashMemory := flashMemory
      flushingState := { s.flushingState with lastErasedBlockOffset := eraseBlockOffset } }, ok)

/-- The erase before a write; its failure is ignored. -/
def preErase (s : Flusher) : Flusher :=
  if s.shouldEraseCurrentFlashMemoryBlock then s.tryEraseCurrentFlashMemoryBlock.1 else s

def tryReadCurrentFlashMemoryPageContent (s : Flusher) : Flusher × Option (List UInt8) :=
  let pageOffset := s.geometry.convertAddressIntoWriteBlockOffset s.flushingState.flashMemoryAddress
  let (flashMemory, page) := s.flashMemory.readBlock pageOffset 0 s.geometry.writeBlockSize
  ({ s with flashMemory := flashMemory }, page)

def tryWriteIntoCurrentFlashMemoryPage (s : Flusher) (pageBuffer : List UInt8) : Flusher × Bool :=
  let pageOffset := s.geometry.convertAddressIntoWriteBlockOffset s.flushingState.flashMemoryAddress
  let (flashMemory, ok) := s.flashMemory.writeBlock pageOffset 0 pageBuffer
  ({ s with flashMemory := flashMemory }, ok)

/-- The checksum over what lies in the page buffer behind the inner offset of the address. -/
def updatePageBufferCrc32 (s : Flusher) (pageBuffer : List UInt8) (nBytesWrittenIntoPage : Nat) : Flusher :=
  let pageBufferInnerOffset :=
    s.geometry.convertAddressIntoWriteBlockInnerOffset s.flushingState.flashMemoryAddress
  let crc := s.flushingState.crc32CalculationState
  { s with flushingState := { s.flushingState with crc32CalculationState := { crc with
      bufferReadChecksum :=
        crc.bufferReadChecksum.update ((pageBuffer.drop pageBufferInnerOffset).take nBytesWrittenIntoPage) } } }

def advance (s : Flusher) (nBytesWrittenIntoPage : Nat) : Flusher :=
  { s with flushingState := { s.flushingState with
      flashMemoryAddress := u32 (s.flushingState.flashMemoryAddress + nBytesWrittenIntoPage) } }

/-- How a part of `onFileBufferingFinished` ends: it goes on, the function returns, or the program panics. -/
inductive Flow (α : Type) where
  | next (s : Flusher) (a : α)
  | returned (s : Flusher)
  | panicked
  | exhausted

/-- The body of the write loop; goes on with the number of bytes taken from the file. -/
def writePage (im : Implementor) (s : Flusher) (file : File) (isLastChunk : Bool) : Flow Nat :=
  match s.tryReadCurrentFlashMemoryPageContent with
  | (s, none) => .returned s
  | (s, some pageBuffer) =>
    let (s, pageBuffer, nBytesWrittenIntoPage, nProcessed) := im.formatFlashMemoryPageContent s pageBuffer file isLastChunk
    let s := s.updatePageBufferCrc32 pageBuffer nBytesWrittenIntoPage
    if nProcessed = 0 then .panicked
    else match s.tryWriteIntoCurrentFlashMemoryPage pageBuffer with
      | (s, false) => .returned s
      | (s, true) => .next (s.advance nBytesWrittenIntoPage) nProcessed

/-- The write loop; goes on with the final `isLastChunk`. -/
def writeFile (im : Implementor) (file : File) (bufferSize : Nat) (isLastChunk : Bool) : Nat → Flusher → Nat → Flow Bool
  | 0, _, _ => .exhausted
  | fuel + 1, s, nProcessedTotal =>
    if nProcessedTotal = bufferSize then .next s isLastChunk
    else
      let s := s.preErase
      if nProcessedTotal > bufferSize then .next s true
      else match writePage im s file isLastChunk with
        | .next s nProcessed => writeFile im file bufferSize isLastChunk fuel s (nProcessedTotal + nProcessed)
        | .returned s => .returned s
        | .panicked => .panicked
        | .exhausted => .exhausted

/-! ## The whole call -/

/-- The read loop of the verification. -/
def readFlashMemoryCrc32 : Nat → Flusher → Nat → Flusher
  | 0, s, _ => s
  | fuel + 1, s, flashMemoryReadAddress =>
    if flashMemoryReadAddress = s.flushingState.flashMemoryAddress then s
    else
      let bufferReadSize :=
        min (u32Sub s.flushingState.flashMemoryAddress flashMemoryReadAddress) s.geometry.writeBlockSize
      let readBlockId := s.geometry.convertAddressIntoWriteBlockOffset flashMemoryReadAddress
      let readBlockInnerOffset := s.geometry.convertAddressIntoWriteBlockInnerOffset flashMemoryReadAddress
      match s.flashMemory.readBlock readBlockId readBlockInnerOffset bufferReadSize with
      | (flashMemory, none) => { s with flashMemory := flashMemory }
      | (flashMemory, some buffer) =>
        let crc := s.flushingState.crc32CalculationState
        readFlashMemoryCrc32 fuel { s with
          flashMemory := flashMemory
          flushingState := { s.flushingState with crc32CalculationState := { crc with
            flashMemoryReadChecksum := crc.flashMemoryReadChecksum.update buffer } } }
          (u32 (flashMemoryReadAddress + bufferReadSize))

def updateFlashMemoryCrc32 (s : Flusher) : Flusher :=
  if !s.flushingState.ongoing then s
  else readFlashMemoryCrc32 (u32Sub s.flushingState.flashMemoryAddress s.flushingState.baseFlashMemoryAddress + 1) s
    s.flushingState.baseFlashMemoryAddress

def startAt (s : Flusher) (address : Nat) : Flusher :=
  { s with flushingState := { s.flushingState with
      baseFlashMemoryAddress := address
      flashMemoryAddress := address } }

/-- Where the first chunk of a file goes; `none` when the file is in no partition. -/
def start (memoryPartitionTable : File → Option Nat) (s : Flusher) (file : File) : Option Flusher :=
  if s.flushingState.ongoing then some s else (memoryPartitionTable file).map s.startAt

def setOngoing (s : Flusher) : Flusher := { s with flushingState := { s.flushingState with ongoing := true } }

def finish (im : Implementor) (s : Flusher) (file : File) (isLastChunk : Bool) : Option Flusher :=
  let s := if isLastChunk then s.updateFlashMemoryCrc32 else s
  (im.onFileBufferingFinishedPostChunkFlushed s file isLastChunk).map fun s =>
    if isLastChunk then { s with flushingState := {} } else s

def onFileBufferingFinished (im : Implementor) (memoryPartitionTable : File → Option Nat) (s : Flusher) (file : File)
    (isLastChunk : Bool) : Option Flusher :=
  match start memoryPartitionTable s file with
  | none => some s
  | some s =>
    let s := s.preErase.setOngoing
    let (fs, bufferSize) := file.getCurrentPosition s.fs
    let s := { s with fs := (file.seek fs 0 .start).1 }
    match writeFile im file bufferSize isLastChunk (bufferSize + 1) s 0 with
    | .next s isLastChunk => finish im s file isLastChunk
    | .returned s => some s
    | .panicked => none
    | .exhausted => none

end Flusher

end Esp32Cam.Bft
