/-
  Esp32Cam.Avi.Avilib — writing an AVI file.

  `openOutputFile` reserves `HEADERBYTES` bytes, `writeFrame` and `writeAudio` put a chunk
  behind what is there, and `close` goes back and writes the header over the reserved bytes.
  An index is counted (`nIdx`) but neither kept nor written. Of an odd number of bytes one
  more is written than there are: the byte behind them in memory, which the caller's data
  come with here (`behind`).

  How much of a write reaches the file is the file system's answer. A chunk that is not
  written whole is left where it is, and the next one goes over it. `fps` is only used for
  the microseconds of a frame, so it is these here.
-/

import Esp32Cam.Lib.Memory
import Esp32Cam.Lib.Riff

namespace Esp32Cam

open Lib
open Lib.Riff (FourCc)

/-! ## The file -/

namespace Avi

structure Stream where
  content : List UInt8
  cursor : Nat
  deriving DecidableEq, Repr

/-- Of the bytes the first `nWritten` reach the file, if there are that many. -/
def Stream.fwrite (f : Stream) (bytes : List UInt8) (nWritten : Nat) : Stream :=
  { content := splice f.content f.cursor (bytes.take nWritten), cursor := f.cursor + (bytes.take nWritten).length }

def Stream.fseek (f : Stream) (offset : Nat) : Stream := { f with cursor := offset }

def AVI_MAX_LEN : Nat := 2000000000
def HEADERBYTES : Nat := 2048

def padEven (x : Nat) : Nat := x + x % 2

inductive AviError where
  | sizeLim
  | write
  | close
  deriving DecidableEq, Repr

end Avi

/-- `avi_t` of a file that is written. -/
structure Avi where
  fdes : Avi.Stream
  width : Int := 0
  height : Int := 0
  msPerFrame : Int := 0
  compressor : FourCc := ⟨0, 0, 0, 0⟩
  videoFrames : Nat := 0
  aFmt : Int := 0
  aChans : Int := 0
  aRate : Int := 0
  aBits : Int := 0
  audioBytes : Nat := 0
  pos : Nat := Avi.HEADERBYTES
  nIdx : Nat := 0
  lastPos : Nat := 0
  lastLen : Nat := 0
  mustUseIndex : Bool := false
  deriving DecidableEq, Repr

namespace Avi

/-- `opened`: how much of the reserved bytes can be written; `none` where the file cannot be opened. -/
def openOutputFile (opened : Option Nat) : Option Avi :=
  match opened with
  | none => none
  | some nWritten =>
    let fdes := Stream.fwrite ⟨[], 0⟩ (List.replicate HEADERBYTES 0) nWritten
    if nWritten < HEADERBYTES then none else some { fdes }

def setVideo (a : Avi) (width height msPerFrame : Int) (compressor : FourCc) : Avi :=
  { a with width, height, msPerFrame, compressor }

def setAudio (a : Avi) (channels rate bits format : Int) : Avi :=
  { a with aChans := channels, aRate := rate, aBits := bits, aFmt := format }

/-! ## Chunks -/

/-- How much of the tag and the length is written, and how much of the data. -/
structure Written where
  nTag : Nat
  nData : Nat
  deriving DecidableEq, Repr

/-- What is read of the data's memory: the byte behind them as well, if their number is odd. -/
def padded (data : List UInt8) (behind : UInt8) : List UInt8 := (data ++ [behind]).take (padEven data.length)

def addChunk (a : Avi) (tag : FourCc) (data : List UInt8) (behind : UInt8) (w : Written) : Avi × Option AviError :=
  let fdes := a.fdes.fwrite (tag.bytes ++ le32 data.length) w.nTag
  if w.nTag < 8 then ({ a with fdes := fdes.fseek a.pos }, some .write)
  else
    let fdes := fdes.fwrite (padded data behind) w.nData
    if w.nData < padEven data.length then ({ a with fdes := fdes.fseek a.pos }, some .write)
    else ({ a with fdes, pos := a.pos + (8 + padEven data.length) }, none)

def addIndexEntry (a : Avi) : Avi := { a with nIdx := a.nIdx + 1 }

def videoTag : FourCc := .ofChars '0' '0' 'd' 'b'
def audioTag : FourCc := .ofChars '0' '1' 'w' 'b'

/-- What the check for the maximum length compares. -/
def lengthWith (a : Avi) (length : Nat) : Nat := a.pos + 8 + length + 8 + (a.nIdx + 1) * 16

def writeData (a : Avi) (tag : FourCc) (data : List UInt8) (behind : UInt8) (w : Written) : Avi × Option AviError :=
  if a.lengthWith data.length > AVI_MAX_LEN then (a, some .sizeLim) else a.addIndexEntry.addChunk tag data behind w

def writeFrame (a : Avi) (data : List UInt8) (behind : UInt8) (w : Written) : Avi × Option AviError :=
  match a.writeData videoTag data behind w with
  | (a', some e) => (a', some e)
  | (a', none) => ({ a' with lastPos := a.pos, lastLen := data.length, videoFrames := a'.videoFrames + 1 }, none)

def dupFrame (a : Avi) : Avi :=
  if a.lastPos = 0 then a
  else { a.addIndexEntry with videoFrames := a.videoFrames + 1, mustUseIndex := true }

def writeAudio (a : Avi) (data : List UInt8) (behind : UInt8) (w : Written) : Avi × Option AviError :=
  match a.writeData audioTag data behind w with
  | (a', some e) => (a', some e)
  | (a', none) => ({ a' with audioBytes := a'.audioBytes + data.length }, none)

def bytesRemain (a : Avi) : Int := AVI_MAX_LEN - (a.pos + 8 + 16 * a.nIdx)

/-! ## The header -/

def out4cc (s : FourCc) (h : List UInt8) : List UInt8 := h ++ s.bytes
def outLong (n : Int) (h : List UInt8) : List UInt8 := h ++ le32 (uint32 n)
def outShrt (n : Int) (h : List UInt8) : List UInt8 := h ++ (le32 (uint32 n)).take 2

/-- `long2str(AVI_header + start - 4, nhb - start)`. -/
def long2strAt (start : Nat) (h : List UInt8) : List UInt8 := splice h (start - 4) (le32 (h.length - start))

def AVIF_HASINDEX : Int := 0x10
def AVIF_MUSTUSEINDEX : Int := 0x20
def AVIF_WASCAPTUREFILE : Int := 0x10000

def flag (a : Avi) : Int :=
  AVIF_WASCAPTUREFILE + AVIF_HASINDEX + if a.mustUseIndex then AVIF_MUSTUSEINDEX else 0

def sampSize (a : Avi) : Int :=
  let s := (a.aBits + 7).tdiv 8 * a.aChans
  if s = 0 then 1 else s

def outMainHeader (a : Avi) (h : List UInt8) : List UInt8 :=
  h |> out4cc (.ofChars 'a' 'v' 'i' 'h') |> outLong 56 |> outLong a.msPerFrame |> outLong 10000000 |> outLong 0
    |> outLong a.flag |> outLong a.videoFrames |> outLong 0 |> outLong (if a.audioBytes ≠ 0 then 2 else 1) |> outLong 0
    |> outLong a.width |> outLong a.height |> outLong 0 |> outLong 0 |> outLong 0 |> outLong 0

def outVideoHeader (a : Avi) (h : List UInt8) : List UInt8 :=
  h |> out4cc (.ofChars 's' 't' 'r' 'h') |> outLong 64 |> out4cc (.ofChars 'v' 'i' 'd' 's') |> out4cc a.compressor
    |> outLong 0 |> outLong 0 |> outLong 0 |> outLong a.msPerFrame |> outLong 1000000 |> outLong 0
    |> outLong a.videoFrames |> outLong 0 |> outLong (-1) |> outLong 0 |> outLong 0 |> outLong 0 |> outLong 0 |> outLong 0

def outVideoFormat (a : Avi) (h : List UInt8) : List UInt8 :=
  h |> out4cc (.ofChars 's' 't' 'r' 'f') |> outLong 40 |> outLong 40 |> outLong a.width |> outLong a.height
    |> outShrt 1 |> outShrt 24 |> out4cc a.compressor |> outLong (a.width * a.height) |> outLong 0 |> outLong 0
    |> outLong 0 |> outLong 0

def outAudioHeader (a : Avi) (h : List UInt8) : List UInt8 :=
  h |> out4cc (.ofChars 's' 't' 'r' 'h') |> outLong 64 |> out4cc (.ofChars 'a' 'u' 'd' 's') |> out4cc ⟨0, 0, 0, 0⟩
    |> outLong 0 |> outLong 0 |> outLong 0 |> outLong a.sampSize |> outLong (a.sampSize * a.aRate) |> outLong 0
    |> outLong ((a.audioBytes : Int).tdiv a.sampSize) |> outLong 0 |> outLong (-1) |> outLong a.sampSize |> outLong 0
    |> outLong 0 |> outLong 0 |> outLong 0

def outAudioFormat (a : Avi) (h : List UInt8) : List UInt8 :=
  h |> out4cc (.ofChars 's' 't' 'r' 'f') |> outLong 16 |> outShrt a.aFmt |> outShrt a.aChans |> outLong a.aRate
    |> outLong (a.sampSize * a.aRate) |> outShrt a.sampSize |> outShrt a.aBits

/-- A list: its length is put in where it is known. -/
def outList (kind : FourCc) (content : List UInt8 → List UInt8) (h : List UInt8) : List UInt8 :=
  let h := h |> out4cc Riff.list |> outLong 0
  let start := h.length
  long2strAt start (h |> out4cc kind |> content)

def outStreams (a : Avi) (h : List UInt8) : List UInt8 :=
  let h := outList (.ofChars 's' 't' 'r' 'l') (outVideoFormat a ∘ outVideoHeader a) h
  if a.aChans ≠ 0 ∧ a.audioBytes ≠ 0 then
    outList (.ofChars 's' 't' 'r' 'l') (outAudioFormat a ∘ outAudioHeader a) h
  else h

/-- The header; `none` where the reserved bytes do not suffice, and the program ends. -/
def header (a : Avi) : Option (List UInt8) :=
  let moviLen : Int := a.pos - HEADERBYTES + 4
  let h := [] |> out4cc Riff.riff |> outLong (a.pos - 8) |> out4cc (.ofChars 'A' 'V' 'I' ' ')
  let h := outList (.ofChars 'h' 'd' 'r' 'l') (outStreams a ∘ outMainHeader a) h
  let njunk : Int := HEADERBYTES - h.length - 8 - 12
  if njunk ≤ 0 then none
  else
    let h := h |> out4cc (.ofChars 'J' 'U' 'N' 'K') |> outLong njunk
    let h := h ++ List.replicate njunk.toNat 0
    some (h |> out4cc Riff.list |> outLong moviLen |> out4cc (.ofChars 'm' 'o' 'v' 'i'))

/-- What is in the file when it is closed; `header`: how much of the header can be written, `none` where the
    beginning cannot be gone back to. -/
def close (a : Avi) (nWritten : Option Nat) : Option (List UInt8 × Option AviError) :=
  a.header.map fun header =>
    match nWritten with
    | none => (a.fdes.content, some .close)
    | some n => (((a.fdes.fseek 0).fwrite header n).content, if n < HEADERBYTES then some .close else none)

end Avi

end Esp32Cam
