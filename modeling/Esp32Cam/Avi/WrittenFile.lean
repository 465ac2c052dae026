/-
  Esp32Cam.Avi.WrittenFile — what a closed AVI file holds.

  The calls on a newly opened file are events; `Recording` keeps beside the writer the
  chunks whose call has returned without an error.

  - `closed_file_reads`: whatever is called, and whatever writes fail after however many
    bytes, a close that writes the header leaves a file that begins with one well-formed
    `RIFF` chunk. Its `movi` list is exactly these chunks, in order, byte for byte. Behind
    it is only what is left of failed writes, and nothing where none has failed.
  - `frames_counted`: the frames counted in its header are the video chunks of the list, and
    the duplicated frames, which are nowhere in the file.
  - `length_bounded`: without duplicated frames the file stays within `AVI_MAX_LEN` with
    its index, and the sum that is compared with it is a `long`.
-/

import Esp32Cam.Avi.Avilib
import Esp32Cam.Lib.Run

namespace Esp32Cam.Avi

open Lib
open Lib.Riff (FourCc Chunk Reads)

/-! ## The header, chunk by chunk -/

def longs (ns : List Int) : List UInt8 := ns.flatMap fun n => le32 (uint32 n)

theorem length_longs (ns : List Int) : (longs ns).length = 4 * ns.length := by
  induction ns with
  | nil => rfl
  | cons n ns ih =>
    show (le32 (uint32 n) ++ longs ns).length = _
    rw [List.length_append, ih, List.length_cons, Nat.mul_succ]
    exact Nat.add_comm _ _

section
variable (a : Avi)

def mainHeader : List UInt8 :=
  longs [a.msPerFrame, 10000000, 0, a.flag, a.videoFrames, 0, if a.audioBytes ≠ 0 then 2 else 1, 0, a.width, a.height,
    0, 0, 0, 0]

def videoHeader : List UInt8 :=
  (FourCc.ofChars 'v' 'i' 'd' 's').bytes ++ (a.compressor.bytes ++
    longs [0, 0, 0, a.msPerFrame, 1000000, 0, a.videoFrames, 0, -1, 0, 0, 0, 0, 0])

def videoFormat : List UInt8 :=
  longs [40, a.width, a.height] ++ ((le32 (uint32 1)).take 2 ++ ((le32 (uint32 24)).take 2 ++ (a.compressor.bytes ++
    longs [a.width * a.height, 0, 0, 0, 0])))

def audioHeader : List UInt8 :=
  (FourCc.ofChars 'a' 'u' 'd' 's').bytes ++ ((⟨0, 0, 0, 0⟩ : FourCc).bytes ++
    longs [0, 0, 0, a.sampSize, a.sampSize * a.aRate, 0, (a.audioBytes : Int).tdiv a.sampSize, 0, -1, a.sampSize,
      0, 0, 0, 0])

def audioFormat : List UInt8 :=
  (le32 (uint32 a.aFmt)).take 2 ++ ((le32 (uint32 a.aChans)).take 2 ++ (longs [a.aRate, a.sampSize * a.aRate] ++
    ((le32 (uint32 a.sampSize)).take 2 ++ (le32 (uint32 a.aBits)).take 2)))

def strl (header format : List UInt8) : Chunk :=
  .list Riff.list (.ofChars 's' 't' 'r' 'l') [.data (.ofChars 's' 't' 'r' 'h') header, .data (.ofChars 's' 't' 'r' 'f') format]

def hasAudio : Bool := a.aChans ≠ 0 ∧ a.audioBytes ≠ 0

def streams : List Chunk :=
  strl a.videoHeader a.videoFormat :: if a.hasAudio then [strl a.audioHeader a.audioFormat] else []

def nJunk : Nat := if a.hasAudio then 1700 else 1808

/-- The file as a chunk, with these chunks of frames and sound in it. -/
def tree (movi : List Chunk) : Chunk :=
  .list Riff.riff (.ofChars 'A' 'V' 'I' ' ')
    [.list Riff.list (.ofChars 'h' 'd' 'r' 'l') (.data (.ofChars 'a' 'v' 'i' 'h') a.mainHeader :: a.streams),
      .data (.ofChars 'J' 'U' 'N' 'K') (List.replicate a.nJunk 0), .list Riff.list (.ofChars 'm' 'o' 'v' 'i') movi]

end

/-! ## Putting the header together -/

def Appends (f : List UInt8 → List UInt8) (bytes : List UInt8) : Prop := ∀ h, f h = h ++ bytes

def Outputs (f : List UInt8 → List UInt8) (chunks : List Chunk) (n : Nat) : Prop :=
  ∃ bytes, Appends f bytes ∧ Reads bytes chunks ∧ bytes.length = n

section
variable {f g : List UInt8 → List UInt8} {cs ds : List Chunk} {n m : Nat}

theorem Outputs.comp (hg : Outputs g ds m) (hf : Outputs f cs n) : Outputs (g ∘ f) (cs ++ ds) (n + m) := by
  obtain ⟨xs, hxs, hcs, rfl⟩ := hf
  obtain ⟨ys, hys, hds, rfl⟩ := hg
  refine ⟨xs ++ ys, fun h => ?_, hcs.append hds, List.length_append⟩
  rw [Function.comp_apply, hxs, hys, List.append_assoc]

theorem Outputs.data {tag : FourCc} {body : List UInt8} (h : Appends f (tag.bytes ++ (le32 n ++ body)))
    (hlength : body.length = n) (htag : tag.isList = false) (hlt : n < 2 ^ 32) (heven : n % 2 = 0) :
    Outputs f [.data tag body] (8 + n) := by
  subst hlength
  refine ⟨_, h, Riff.reads_data_of_even tag body htag hlt heven, ?_⟩
  simp only [List.length_append, FourCc.length_bytes, le32, List.length_cons, List.length_nil]
  omega

/-- A list has the length of its content in front. -/
theorem Outputs.list {kind : FourCc} (h : Outputs f cs n) (hlt : 4 + n < 2 ^ 32) :
    Outputs (outList kind f) [.list Riff.list kind cs] (12 + n) := by
  obtain ⟨body, hbody, hreads, rfl⟩ := h
  refine ⟨_, fun pre => ?_, hreads.list_of Riff.list kind rfl hlt, ?_⟩
  · have hstart : (pre ++ Riff.list.bytes ++ le32 (uint32 0)).length = pre.length + 8 := by
      simp only [List.length_append, FourCc.length_bytes, le32, List.length_cons, List.length_nil]
    have hlength : (pre ++ Riff.list.bytes ++ le32 (uint32 0) ++ (kind.bytes ++ body)).length - (pre.length + 8) =
        4 + body.length := by
      rw [List.length_append, hstart, List.length_append, FourCc.length_bytes]
      omega
    have hfront : pre.length + 8 - 4 = (pre ++ Riff.list.bytes).length := by
      rw [List.length_append, FourCc.length_bytes]
      omega
    show long2strAt (pre ++ Riff.list.bytes ++ le32 (uint32 0)).length
      (f (pre ++ Riff.list.bytes ++ le32 (uint32 0) ++ kind.bytes)) = _
    rw [hbody, List.append_assoc _ kind.bytes, long2strAt, hstart, hlength, List.append_assoc _ (le32 (uint32 0)),
      hfront, splice_append, List.append_assoc]
    rfl
  · simp only [List.length_append, FourCc.length_bytes, le32, List.length_cons, List.length_nil]
    omega

end

section
variable (a : Avi)

theorem outMainHeader_outputs : Outputs a.outMainHeader [.data (.ofChars 'a' 'v' 'i' 'h') a.mainHeader] 64 := by
  refine Outputs.data (n := 56) (fun h => ?_) (length_longs _) rfl (by decide) rfl
  simp only [outMainHeader, out4cc, outLong, mainHeader, longs, List.flatMap_cons, List.flatMap_nil, List.append_assoc,
    List.append_nil]
  rfl

theorem outVideoHeader_outputs : Outputs a.outVideoHeader [.data (.ofChars 's' 't' 'r' 'h') a.videoHeader] 72 := by
  refine Outputs.data (n := 64) (fun h => ?_) ?_ rfl (by decide) rfl
  · simp only [outVideoHeader, out4cc, outLong, videoHeader, longs, List.flatMap_cons, List.flatMap_nil, List.append_assoc,
      List.append_nil]
    rfl
  · simp only [videoHeader, List.length_append, FourCc.length_bytes, length_longs]
    rfl

theorem outVideoFormat_outputs : Outputs a.outVideoFormat [.data (.ofChars 's' 't' 'r' 'f') a.videoFormat] 48 := by
  refine Outputs.data (n := 40) (fun h => ?_) ?_ rfl (by decide) rfl
  · simp only [outVideoFormat, out4cc, outLong, outShrt, videoFormat, longs, List.flatMap_cons, List.flatMap_nil,
      List.append_assoc, List.append_nil]
    rfl
  · simp only [videoFormat, List.length_append, FourCc.length_bytes, length_longs]
    rfl

theorem outAudioHeader_outputs : Outputs a.outAudioHeader [.data (.ofChars 's' 't' 'r' 'h') a.audioHeader] 72 := by
  refine Outputs.data (n := 64) (fun h => ?_) ?_ rfl (by decide) rfl
  · simp only [outAudioHeader, out4cc, outLong, audioHeader, longs, List.flatMap_cons, List.flatMap_nil, List.append_assoc,
      List.append_nil]
    rfl
  · simp only [audioHeader, List.length_append, FourCc.length_bytes, length_longs]
    rfl

theorem outAudioFormat_outputs : Outputs a.outAudioFormat [.data (.ofChars 's' 't' 'r' 'f') a.audioFormat] 24 := by
  refine Outputs.data (n := 16) (fun h => ?_) ?_ rfl (by decide) rfl
  · simp only [outAudioFormat, out4cc, outLong, outShrt, audioFormat, longs, List.flatMap_cons, List.flatMap_nil,
      List.append_assoc, List.append_nil]
    rfl
  · simp only [audioFormat, List.length_append, length_longs]
    rfl

theorem outStreams_outputs : Outputs a.outStreams a.streams (if a.hasAudio then 240 else 132) := by
  have hvideo : Outputs (outList (.ofChars 's' 't' 'r' 'l') (a.outVideoFormat ∘ a.outVideoHeader))
      [strl a.videoHeader a.videoFormat] 132 :=
    ((outVideoFormat_outputs a).comp (outVideoHeader_outputs a)).list (by decide)
  have haudio : Outputs (outList (.ofChars 's' 't' 'r' 'l') (a.outAudioFormat ∘ a.outAudioHeader))
      [strl a.audioHeader a.audioFormat] 108 :=
    ((outAudioFormat_outputs a).comp (outAudioHeader_outputs a)).list (by decide)
  by_cases h : a.aChans ≠ 0 ∧ a.audioBytes ≠ 0
  · have hboth : a.outStreams = outList (.ofChars 's' 't' 'r' 'l') (a.outAudioFormat ∘ a.outAudioHeader) ∘
        outList (.ofChars 's' 't' 'r' 'l') (a.outVideoFormat ∘ a.outVideoHeader) := by
      funext pre
      exact if_pos h
    rw [hboth, streams, hasAudio, decide_eq_true h]
    exact haudio.comp hvideo
  · have hone : a.outStreams = outList (.ofChars 's' 't' 'r' 'l') (a.outVideoFormat ∘ a.outVideoHeader) := by
      funext pre
      exact if_neg h
    rw [hone, streams, hasAudio, decide_eq_false h]
    exact hvideo

/-- The header fills the reserved bytes, and makes one chunk of what follows it up to `pos`. -/
theorem header_reads : ∃ front, a.header = some front ∧ front.length = HEADERBYTES ∧
    ∀ movi chunks, Reads movi chunks → HEADERBYTES + movi.length = a.pos → a.pos ≤ AVI_MAX_LEN →
      Reads (front ++ movi) [a.tree chunks] := by
  have hhdrl : Outputs (outList (.ofChars 'h' 'd' 'r' 'l') (a.outStreams ∘ a.outMainHeader))
      [.list Riff.list (.ofChars 'h' 'd' 'r' 'l') (.data (.ofChars 'a' 'v' 'i' 'h') a.mainHeader :: a.streams)]
      (12 + (64 + if a.hasAudio then 240 else 132)) :=
    ((outStreams_outputs a).comp (outMainHeader_outputs a)).list (by split <;> decide)
  obtain ⟨hdrl, hout, hhdrl, hlength⟩ := hhdrl
  generalize htop : Riff.riff.bytes ++ (le32 (uint32 (a.pos - 8)) ++ (FourCc.ofChars 'A' 'V' 'I' ' ').bytes) = top
  have htoplength : top.length = 12 := by rw [← htop]; rfl
  have hjunk : (HEADERBYTES : Int) - (top ++ hdrl).length - 8 - 12 = a.nJunk ∧ 0 < a.nJunk ∧
      hdrl.length + a.nJunk = 2016 := by
    unfold HEADERBYTES nJunk
    rw [List.length_append, htoplength, hlength]
    split <;> decide
  obtain ⟨hn, hpos, hsum⟩ := hjunk
  have hheader : a.header = some (top ++ (hdrl ++ ((FourCc.ofChars 'J' 'U' 'N' 'K').bytes ++ (le32 (uint32 a.nJunk) ++
      (List.replicate a.nJunk 0 ++ (Riff.list.bytes ++ (le32 (uint32 (a.pos - HEADERBYTES + 4)) ++
        (FourCc.ofChars 'm' 'o' 'v' 'i').bytes))))))) := by
    have hbegun : outList (.ofChars 'h' 'd' 'r' 'l') (a.outStreams ∘ a.outMainHeader)
        ([] |> out4cc Riff.riff |> outLong (a.pos - 8) |> out4cc (.ofChars 'A' 'V' 'I' ' ')) = top ++ hdrl := by
      rw [hout, ← htop]
      rfl
    rw [header]
    dsimp only
    rw [hbegun, hn, if_neg (Int.not_le.mpr (Int.natCast_pos.mpr hpos)), Int.toNat_natCast]
    simp only [out4cc, outLong, List.append_assoc]
  refine ⟨_, hheader, ?_, fun movi chunks hmovi hend hmax => ?_⟩
  · simp only [List.length_append, htoplength, FourCc.length_bytes, le32, List.length_cons, List.length_nil,
      List.length_replicate, HEADERBYTES]
    omega
  · have hbound : a.pos < 2 ^ 32 := Nat.lt_of_le_of_lt hmax (by decide)
    unfold HEADERBYTES at hend
    have hjunk := Riff.reads_data_of_even (.ofChars 'J' 'U' 'N' 'K') (List.replicate a.nJunk 0) rfl
      (by rw [List.length_replicate]; omega) (by rw [List.length_replicate, nJunk]; split <;> rfl)
    rw [List.length_replicate] at hjunk
    have hlist := hmovi.list_of Riff.list (.ofChars 'm' 'o' 'v' 'i') rfl (by omega)
    have hbody := hhdrl.append (hjunk.append hlist)
    have hbodylength : 4 + (hdrl ++ ((FourCc.ofChars 'J' 'U' 'N' 'K').bytes ++ (le32 a.nJunk ++ List.replicate a.nJunk 0) ++
        (Riff.list.bytes ++ (le32 (4 + movi.length) ++ ((FourCc.ofChars 'm' 'o' 'v' 'i').bytes ++ movi))))).length =
        a.pos - 8 := by
      simp only [List.length_append, FourCc.length_bytes, le32, List.length_cons, List.length_nil, List.length_replicate]
      omega
    have hfile := hbody.list_of Riff.riff (.ofChars 'A' 'V' 'I' ' ') rfl (by omega)
    have hriff : uint32 ((a.pos : Int) - 8) = a.pos - 8 := by rw [← uint32_of_lt (n := a.pos - 8) (by omega)]; congr 1; omega
    have hlistsize : uint32 ((a.pos : Int) - (HEADERBYTES : Nat) + 4) = 4 + movi.length := by
      rw [← uint32_of_lt (n := 4 + movi.length) (by omega)]
      congr 1
      unfold HEADERBYTES
      omega
    have hjunksize : uint32 (a.nJunk : Int) = a.nJunk := uint32_of_lt (by omega)
    rw [hbodylength] at hfile
    rw [← htop, hriff, hlistsize, hjunksize]
    simpa only [tree, List.append_assoc, List.cons_append, List.nil_append] using hfile

end

/-! ## Writing chunks -/

theorem fwrite_behind (front rest bytes : List UInt8) (nWritten : Nat) :
    Stream.fwrite ⟨front ++ rest, front.length⟩ bytes nWritten =
      ⟨front ++ (bytes.take nWritten ++ rest.drop (bytes.take nWritten).length),
        (front ++ bytes.take nWritten).length⟩ := by
  rw [Stream.fwrite, splice_append, List.length_append]

theorem padded_eq (data : List UInt8) (behind : UInt8) : padded data behind = data ++ [behind].take (data.length % 2) := by
  rw [padded, padEven, List.take_append, List.take_of_length_le (Nat.le_add_right _ _), Nat.add_sub_cancel_left]

def Written.Whole (w : Written) (data : List UInt8) : Prop := 8 ≤ w.nTag ∧ padEven data.length ≤ w.nData

def chunkBytes (tag : FourCc) (data : List UInt8) (behind : UInt8) : List UInt8 :=
  tag.bytes ++ (le32 data.length ++ padded data behind)

section
variable {a : Avi} {front rest : List UInt8} {tag : FourCc} {data : List UInt8} {behind : UInt8} {w : Written}

theorem length_padded : (padded data behind).length = padEven data.length := by
  rw [padded_eq, List.length_append, List.length_take, padEven, List.length_singleton]
  omega

theorem length_chunkBytes : (chunkBytes tag data behind).length = 8 + padEven data.length := by
  rw [chunkBytes, List.length_append, List.length_append, length_padded, ← Nat.add_assoc]
  rfl

theorem reads_chunkBytes (htag : tag.isList = false) (hlength : data.length < 2 ^ 32) :
    Reads (chunkBytes tag data behind) [.data tag data] := by
  rw [chunkBytes, padded_eq]
  refine Riff.reads_data tag data _ htag hlength ?_
  rw [List.length_take, List.length_singleton]
  omega

/-- A chunk that is written whole is behind what was there; otherwise the next one goes where this one began. -/
theorem addChunk_cases (hfile : a.fdes = ⟨front ++ rest, front.length⟩) (hpos : a.pos = front.length) :
    (w.Whole data ∧ a.addChunk tag data behind w =
      ({ a with fdes := ⟨front ++ (chunkBytes tag data behind ++ rest.drop (8 + padEven data.length)),
                         (front ++ chunkBytes tag data behind).length⟩
                pos := (front ++ chunkBytes tag data behind).length }, none)) ∨
    (¬ w.Whole data ∧ ∃ rest', a.addChunk tag data behind w =
      ({ a with fdes := ⟨front ++ rest', front.length⟩ }, some .write)) := by
  have hc : (tag.bytes ++ le32 data.length).length = 8 := rfl
  unfold addChunk
  rw [hfile, fwrite_behind, hpos]
  dsimp only [Stream.fseek]
  split
  · next htag => exact Or.inr ⟨fun h => absurd h.1 (Nat.not_le.mpr htag), _, rfl⟩
  · next htag =>
    rw [List.take_of_length_le (hc.trans_le (Nat.not_lt.mp htag)), ← List.append_assoc, fwrite_behind]
    split
    · next hdata =>
      refine Or.inr ⟨fun h => absurd h.2 (Nat.not_le.mpr hdata), ?_⟩
      simp only [List.append_assoc]
      exact ⟨_, rfl⟩
    · next hdata =>
      rw [List.take_of_length_le (length_padded.trans_le (Nat.not_lt.mp hdata)), length_padded, hc, List.drop_drop]
      refine Or.inl ⟨⟨Nat.not_lt.mp htag, Nat.not_lt.mp hdata⟩, ?_⟩
      have hwhole : front ++ (tag.bytes ++ le32 data.length) ++ padded data behind = front ++ chunkBytes tag data behind := by
        rw [chunkBytes, List.append_assoc, List.append_assoc]
      rw [← List.append_assoc _ (padded data behind), hwhole, List.append_assoc]
      simp only [List.length_append, length_chunkBytes]

variable (tag data behind w) in
theorem writeData_cases (hfile : a.fdes = ⟨front ++ rest, front.length⟩) (hpos : a.pos = front.length) :
    a.writeData tag data behind w = (a, some .sizeLim) ∨
    a.lengthWith data.length ≤ AVI_MAX_LEN ∧
      (a.writeData tag data behind w =
        ({ a with fdes := ⟨front ++ (chunkBytes tag data behind ++ rest.drop (8 + padEven data.length)),
                           (front ++ chunkBytes tag data behind).length⟩
                  pos := (front ++ chunkBytes tag data behind).length, nIdx := a.nIdx + 1 }, none) ∨
      ∃ rest', a.writeData tag data behind w =
        ({ a with fdes := ⟨front ++ rest', front.length⟩, nIdx := a.nIdx + 1 }, some .write)) := by
  unfold writeData
  split
  · exact Or.inl rfl
  · next hfits =>
    refine Or.inr ⟨Nat.not_lt.mp hfits, ?_⟩
    rcases addChunk_cases (a := a.addIndexEntry) (w := w) hfile hpos with ⟨_, hwritten⟩ | ⟨_, rest', hfailed⟩
    · exact Or.inl hwritten
    · exact Or.inr ⟨rest', hfailed⟩

end

/-! ## Recordings -/

inductive Call where
  | setVideo (width height msPerFrame : Int) (compressor : FourCc)
  | setAudio (channels rate bits format : Int)
  | writeFrame (data : List UInt8) (behind : UInt8) (w : Written)
  | dupFrame
  | writeAudio (data : List UInt8) (behind : UInt8) (w : Written)
  deriving DecidableEq, Repr

def call (a : Avi) : Call → Avi × Option AviError
  | .setVideo width height msPerFrame compressor => (a.setVideo width height msPerFrame compressor, none)
  | .setAudio channels rate bits format => (a.setAudio channels rate bits format, none)
  | .writeFrame data behind w => a.writeFrame data behind w
  | .dupFrame => (a.dupFrame, none)
  | .writeAudio data behind w => a.writeAudio data behind w

def Call.chunk : Call → List Chunk
  | .writeFrame data _ _ => [.data videoTag data]
  | .writeAudio data _ _ => [.data audioTag data]
  | _ => []

def isVideo : Chunk → Bool
  | .data tag _ => tag = videoTag
  | .list .. => false

/-- `duplicated` counts the frames duplicated; `failed`: a write has failed. -/
structure Recording where
  avi : Avi
  chunks : List Chunk := []
  duplicated : Nat := 0
  failed : Bool := false

namespace Recording

def step (r : Recording) (c : Call) : Recording where
  avi := (r.avi.call c).1
  chunks := if (r.avi.call c).2 = none then r.chunks ++ c.chunk else r.chunks
  duplicated := if c = .dupFrame ∧ r.chunks.any isVideo then r.duplicated + 1 else r.duplicated
  failed := r.failed || (r.avi.call c).2 = some .write

/-- The reserved bytes, with what is in the `movi` list behind. -/
def front (movi : List UInt8) : List UInt8 := List.replicate HEADERBYTES 0 ++ movi

structure Body (movi rest : List UInt8) (fdes : Stream) (pos : Nat) (chunks : List Chunk) (failed : Bool) : Prop where
  file : fdes = ⟨front movi ++ rest, (front movi).length⟩
  pos : pos = (front movi).length
  reads : Reads movi chunks
  whole : failed = false → rest = []

def Holds (r : Recording) : Prop := ∃ movi rest, Body movi rest r.avi.fdes r.avi.pos r.chunks r.failed

structure Counts (r : Recording) : Prop where
  frames : r.avi.videoFrames = r.chunks.countP isVideo + r.duplicated
  last : r.avi.lastPos = 0 ↔ r.chunks.any isVideo = false
  room : r.avi.pos + 7 + 16 * r.avi.nIdx ≤ AVI_MAX_LEN + 16 * r.duplicated
  bound : r.avi.pos + 7 ≤ AVI_MAX_LEN
  start : HEADERBYTES ≤ r.avi.pos

section
variable (a : Avi) (tag : FourCc) (data : List UInt8) (behind : UInt8) (w : Written)

theorem writeFrame_eq : a.writeFrame data behind w =
    (if (a.writeData videoTag data behind w).2 = none then
      { (a.writeData videoTag data behind w).1 with
        lastPos := a.pos, lastLen := data.length,
        videoFrames := (a.writeData videoTag data behind w).1.videoFrames + 1 }
     else (a.writeData videoTag data behind w).1, (a.writeData videoTag data behind w).2) := by
  unfold writeFrame
  rcases a.writeData videoTag data behind w with ⟨a', _ | e⟩
  · rfl
  · rfl

theorem writeAudio_eq : a.writeAudio data behind w =
    (if (a.writeData audioTag data behind w).2 = none then
      { (a.writeData audioTag data behind w).1 with
        audioBytes := (a.writeData audioTag data behind w).1.audioBytes + data.length }
     else (a.writeData audioTag data behind w).1, (a.writeData audioTag data behind w).2) := by
  unfold writeAudio
  rcases a.writeData audioTag data behind w with ⟨a', _ | e⟩
  · rfl
  · rfl

variable {a tag} in
theorem writeData_body {movi rest : List UInt8} {chunks : List Chunk} {failed : Bool}
    (h : Body movi rest a.fdes a.pos chunks failed) (htag : tag.isList = false) :
    ∃ movi' rest', Body movi' rest' (a.writeData tag data behind w).1.fdes (a.writeData tag data behind w).1.pos
      (if (a.writeData tag data behind w).2 = none then chunks ++ [.data tag data] else chunks)
      (failed || (a.writeData tag data behind w).2 = some .write) := by
  rcases writeData_cases tag data behind w h.file h.pos with
    hrefused | ⟨hfits, hwritten | ⟨rest', hfailed⟩⟩
  · rw [hrefused]
    refine ⟨movi, rest, h.file, h.pos, h.reads, fun hok => h.whole ?_⟩
    simpa using hok
  · have hlength : data.length < 2 ^ 32 := by
      unfold lengthWith AVI_MAX_LEN at hfits
      omega
    have hfront : front (movi ++ chunkBytes tag data behind) = front movi ++ chunkBytes tag data behind := by
      rw [front, front, List.append_assoc]
    rw [hwritten]
    refine ⟨movi ++ chunkBytes tag data behind, rest.drop (8 + padEven data.length), ?_, ?_, ?_, fun hok => ?_⟩
    · rw [hfront, List.append_assoc]
    · rw [hfront]
    · exact h.reads.append (reads_chunkBytes htag hlength)
    · rw [h.whole (by simpa using hok), List.drop_nil]
  · rw [hfailed]
    exact ⟨movi, rest', rfl, h.pos, h.reads, fun hok => absurd hok (by simp)⟩

theorem writeData_videoFrames : (a.writeData tag data behind w).1.videoFrames = a.videoFrames := by
  unfold writeData addChunk
  split
  · rfl
  · dsimp only
    split
    · rfl
    · split <;> rfl

theorem writeData_lastPos : (a.writeData tag data behind w).1.lastPos = a.lastPos := by
  unfold writeData addChunk
  split
  · rfl
  · dsimp only
    split
    · rfl
    · split <;> rfl

variable {a} in
/-- What the check for the maximum length leaves. -/
theorem writeData_room {d : Nat} (hroom : a.pos + 7 + 16 * a.nIdx ≤ AVI_MAX_LEN + 16 * d)
    (hbound : a.pos + 7 ≤ AVI_MAX_LEN) :
    (a.writeData tag data behind w).1.pos + 7 + 16 * (a.writeData tag data behind w).1.nIdx ≤ AVI_MAX_LEN + 16 * d ∧
      (a.writeData tag data behind w).1.pos + 7 ≤ AVI_MAX_LEN ∧ a.pos ≤ (a.writeData tag data behind w).1.pos := by
  unfold writeData addChunk
  split
  · exact ⟨hroom, hbound, Nat.le_refl _⟩
  · next hfits =>
    have hpad : padEven data.length ≤ data.length + 1 := by unfold padEven; omega
    unfold lengthWith at hfits
    dsimp only
    split
    · dsimp only [addIndexEntry]
      omega
    · split
      · dsimp only [addIndexEntry]
        omega
      · dsimp only [addIndexEntry]
        omega

theorem writeFrame_fields : (a.writeFrame data behind w).2 = (a.writeData videoTag data behind w).2 ∧
    (a.writeFrame data behind w).1.fdes = (a.writeData videoTag data behind w).1.fdes ∧
    (a.writeFrame data behind w).1.pos = (a.writeData videoTag data behind w).1.pos ∧
    (a.writeFrame data behind w).1.nIdx = (a.writeData videoTag data behind w).1.nIdx := by
  rw [writeFrame_eq]
  dsimp only
  split <;> exact ⟨rfl, rfl, rfl, rfl⟩

theorem writeFrame_counts :
    ((a.writeFrame data behind w).2 = none ∧ (a.writeFrame data behind w).1.videoFrames = a.videoFrames + 1 ∧
      (a.writeFrame data behind w).1.lastPos = a.pos) ∨
    ((a.writeFrame data behind w).2 ≠ none ∧ (a.writeFrame data behind w).1.videoFrames = a.videoFrames ∧
      (a.writeFrame data behind w).1.lastPos = a.lastPos) := by
  have hframes := writeData_videoFrames a videoTag data behind w
  have hlast := writeData_lastPos a videoTag data behind w
  rw [writeFrame_eq]
  dsimp only
  split
  · next hok => exact Or.inl ⟨hok, congrArg (· + 1) hframes, rfl⟩
  · next hfailed => exact Or.inr ⟨hfailed, hframes, hlast⟩

theorem writeAudio_fields : (a.writeAudio data behind w).2 = (a.writeData audioTag data behind w).2 ∧
    (a.writeAudio data behind w).1.fdes = (a.writeData audioTag data behind w).1.fdes ∧
    (a.writeAudio data behind w).1.pos = (a.writeData audioTag data behind w).1.pos ∧
    (a.writeAudio data behind w).1.nIdx = (a.writeData audioTag data behind w).1.nIdx ∧
    (a.writeAudio data behind w).1.videoFrames = a.videoFrames ∧
    (a.writeAudio data behind w).1.lastPos = a.lastPos := by
  rw [writeAudio_eq, ← writeData_videoFrames a audioTag data behind w, ← writeData_lastPos a audioTag data behind w]
  dsimp only
  split <;> exact ⟨rfl, rfl, rfl, rfl, rfl, rfl⟩

end

section
variable {r : Recording} {c : Call}

theorem step_holds (c : Call) (h : r.Holds) : (r.step c).Holds := by
  obtain ⟨movi, rest, h⟩ := h
  cases c with
  | setVideo width height msPerFrame compressor =>
    exact ⟨movi, rest, by simpa [step, call, Call.chunk, setVideo] using h⟩
  | setAudio channels rate bits format =>
    exact ⟨movi, rest, by simpa [step, call, Call.chunk, setAudio] using h⟩
  | dupFrame =>
    have hkept : r.avi.dupFrame.fdes = r.avi.fdes ∧ r.avi.dupFrame.pos = r.avi.pos := by
      unfold dupFrame
      split <;> exact ⟨rfl, rfl⟩
    exact ⟨movi, rest, by simpa [step, call, Call.chunk, hkept.1, hkept.2] using h⟩
  | writeFrame data behind w =>
    obtain ⟨herror, hfdes, hpos, -⟩ := writeFrame_fields r.avi data behind w
    obtain ⟨movi', rest', hbody⟩ := writeData_body data behind w h (show videoTag.isList = false from rfl)
    exact ⟨movi', rest', by simpa only [step, call, Call.chunk, herror, hfdes, hpos] using hbody⟩
  | writeAudio data behind w =>
    obtain ⟨herror, hfdes, hpos, -⟩ := writeAudio_fields r.avi data behind w
    obtain ⟨movi', rest', hbody⟩ := writeData_body data behind w h (show audioTag.isList = false from rfl)
    exact ⟨movi', rest', by simpa only [step, call, Call.chunk, herror, hfdes, hpos] using hbody⟩

theorem step_counts (c : Call) (h : r.Counts) : (r.step c).Counts := by
  have hstart := h.start
  cases c with
  | setVideo width height msPerFrame compressor =>
    refine ⟨?_, ?_, h.room, h.bound, hstart⟩
    · simpa [step, call, Call.chunk, setVideo] using h.frames
    · simpa [step, call, Call.chunk, setVideo] using h.last
  | setAudio channels rate bits format =>
    refine ⟨?_, ?_, h.room, h.bound, hstart⟩
    · simpa [step, call, Call.chunk, setAudio] using h.frames
    · simpa [step, call, Call.chunk, setAudio] using h.last
  | dupFrame =>
    by_cases hlast : r.avi.lastPos = 0
    · have hnone : r.chunks.any isVideo = false := h.last.mp hlast
      have hcall : r.avi.dupFrame = r.avi := if_pos hlast
      have hstep : r.step .dupFrame = r := by simp [step, call, Call.chunk, hcall, hnone]
      rwa [hstep]
    · have hsome : r.chunks.any isVideo = true := by
        rw [← Bool.not_eq_false, ← h.last]
        exact hlast
      have hcall : r.avi.dupFrame =
          { r.avi with nIdx := r.avi.nIdx + 1, videoFrames := r.avi.videoFrames + 1, mustUseIndex := true } := if_neg hlast
      have hstep : r.step .dupFrame = { r with avi := r.avi.dupFrame, duplicated := r.duplicated + 1 } := by
        simp [step, call, Call.chunk, hsome]
      have hroom := h.room
      rw [hstep, hcall]
      refine ⟨?_, h.last, ?_, h.bound, hstart⟩
      · dsimp only
        rw [h.frames, Nat.add_assoc]
      · dsimp only
        omega
  | writeFrame data behind w =>
    obtain ⟨herror, -, hpos, hnIdx⟩ := writeFrame_fields r.avi data behind w
    obtain ⟨hroom, hbound, hle⟩ := writeData_room videoTag data behind w h.room h.bound
    rw [← hpos, ← hnIdx] at hroom
    rw [← hpos] at hbound hle
    have hvideo : isVideo (.data videoTag data) = true := rfl
    rcases writeFrame_counts r.avi data behind w with
      ⟨hok, hframes, hlast⟩ | ⟨hfailed, hframes, hlast⟩
    · have hchunks : (r.step (.writeFrame data behind w)).chunks = r.chunks ++ [.data videoTag data] := if_pos hok
      refine ⟨?_, ?_, hroom, hbound, hstart.trans hle⟩
      · rw [hchunks, List.countP_append, List.countP_singleton, if_pos hvideo, Nat.add_right_comm]
        exact hframes.trans (congrArg (· + 1) h.frames)
      · rw [hchunks, List.any_append, List.any_cons, hvideo, Bool.true_or, Bool.or_true]
        have hpositive : r.avi.pos ≠ 0 := by unfold HEADERBYTES at hstart; omega
        exact iff_of_false (hlast.trans_ne hpositive) (by decide)
    · have hchunks : (r.step (.writeFrame data behind w)).chunks = r.chunks := if_neg hfailed
      refine ⟨?_, ?_, hroom, hbound, hstart.trans hle⟩
      · rw [hchunks]
        exact hframes.trans h.frames
      · rw [hchunks, ← h.last]
        exact (congrArg (· = 0) hlast).to_iff
  | writeAudio data behind w =>
    obtain ⟨herror, -, hpos, hnIdx, hframes, hlast⟩ := writeAudio_fields r.avi data behind w
    obtain ⟨hroom, hbound, hle⟩ := writeData_room audioTag data behind w h.room h.bound
    rw [← hpos, ← hnIdx] at hroom
    rw [← hpos] at hbound hle
    have hchunks : (r.step (.writeAudio data behind w)).chunks = r.chunks ∨
        (r.step (.writeAudio data behind w)).chunks = r.chunks ++ [.data audioTag data] := by
      dsimp only [step, Call.chunk]
      split
      · exact Or.inr rfl
      · exact Or.inl rfl
    have haudio : isVideo (.data audioTag data) = false := rfl
    have hkept : (r.step (.writeAudio data behind w)).chunks.countP isVideo = r.chunks.countP isVideo ∧
        (r.step (.writeAudio data behind w)).chunks.any isVideo = r.chunks.any isVideo := by
      rcases hchunks with hchunks | hchunks
      · rw [hchunks]
        exact ⟨rfl, rfl⟩
      · rw [hchunks, List.countP_append, List.any_append, List.countP_singleton, List.any_cons, haudio]
        exact ⟨rfl, Bool.or_false _⟩
    refine ⟨?_, ?_, hroom, hbound, hstart.trans hle⟩
    · rw [hkept.1]
      exact hframes.trans h.frames
    · rw [hkept.2, ← h.last]
      exact (congrArg (· = 0) hlast).to_iff

theorem Holds.fail (h : r.Holds) : Holds { r with failed := true } := by
  obtain ⟨movi, rest, h⟩ := h
  exact ⟨movi, rest, h.file, h.pos, h.reads, fun hwhole => by cases hwhole⟩

theorem Counts.fail (h : r.Counts) : Counts { r with failed := true } := ⟨h.frames, h.last, h.room, h.bound, h.start⟩

end

/-! ## The file that is closed -/

/-- A newly opened file. -/
def reserved : Avi := { fdes := ⟨List.replicate HEADERBYTES 0, HEADERBYTES⟩ }

theorem openOutputFile_of_whole {nOpened : Nat} (h : HEADERBYTES ≤ nOpened) :
    openOutputFile (some nOpened) = some reserved := by
  have htake : (List.replicate HEADERBYTES (0 : UInt8)).take nOpened = List.replicate HEADERBYTES 0 :=
    List.take_of_length_le (List.length_replicate.trans_le h)
  unfold openOutputFile
  dsimp only
  rw [if_neg (Nat.not_lt.mpr h), Stream.fwrite, htake, List.length_replicate, Nat.zero_add, splice_nil]
  rfl

theorem openOutputFile_eq {nOpened : Nat} {a : Avi} (h : openOutputFile (some nOpened) = some a) :
    a = reserved := by
  by_cases hwhole : HEADERBYTES ≤ nOpened
  · exact (Option.some.inj ((openOutputFile_of_whole hwhole).symm.trans h)).symm
  · have hnone : openOutputFile (some nOpened) = none := if_pos (Nat.not_le.mp hwhole)
    rw [hnone] at h
    cases h

theorem holds_opened {nOpened : Nat} {a : Avi} (hopen : openOutputFile (some nOpened) = some a) :
    Holds { avi := a } := by
  rw [openOutputFile_eq hopen]
  refine ⟨[], [], ?_, ?_, .nil, fun _ => rfl⟩
  · rw [front, List.append_nil, List.append_nil, List.length_replicate]
    rfl
  · rw [front, List.append_nil, List.length_replicate]
    rfl

theorem counts_opened {nOpened : Nat} {a : Avi} (hopen : openOutputFile (some nOpened) = some a) :
    Counts { avi := a } := by
  rw [openOutputFile_eq hopen]
  exact ⟨rfl, iff_of_true rfl rfl, by decide, by decide, Nat.le_refl _⟩

/-- The header goes over the reserved bytes. -/
theorem close_reads {r : Recording} (h : r.Holds) (hcounts : r.Counts) {nHeader : Nat} (hheader : HEADERBYTES ≤ nHeader) :
    ∃ file rest, r.avi.close (some nHeader) = some (file ++ rest, none) ∧
      Riff.decode file = some [r.avi.tree r.chunks] ∧ (r.failed = false → rest = []) := by
  obtain ⟨movi, rest, h⟩ := h
  obtain ⟨header, hbytes, hlength, hreads⟩ := header_reads r.avi
  have hend : HEADERBYTES + movi.length = r.avi.pos := by
    rw [h.pos, front, List.length_append, List.length_replicate]
  have hmax : r.avi.pos ≤ AVI_MAX_LEN := Nat.le_trans (Nat.le_add_right _ 7) hcounts.bound
  refine ⟨header ++ movi, rest, ?_, (hreads movi r.chunks h.reads hend hmax).decode, h.whole⟩
  have htake : header.take nHeader = header := List.take_of_length_le (hlength.trans_le hheader)
  have hover : splice (front movi ++ rest) 0 header = header ++ (movi ++ rest) := by
    have hbegin := splice_append [] (front movi ++ rest) header
    rw [hlength, front, List.append_assoc, List.drop_left' List.length_replicate] at hbegin
    rw [front, List.append_assoc]
    exact hbegin
  rw [close, hbytes, Option.map_some]
  dsimp only [Stream.fwrite, Stream.fseek]
  rw [htake, h.file, hover, if_neg (Nat.not_lt.mpr hheader), List.append_assoc]

/-- A close fails where the header is not written whole, and only there. -/
theorem close_cases (a : Avi) (nHeader : Option Nat) : ∃ content error, a.close nHeader = some (content, error) ∧
    (error = none → ∃ n, nHeader = some n ∧ HEADERBYTES ≤ n) := by
  obtain ⟨header, hbytes, -⟩ := header_reads a
  rw [close, hbytes]
  cases nHeader with
  | none => exact ⟨_, _, rfl, fun hnone => by cases hnone⟩
  | some n =>
    refine ⟨_, _, rfl, fun hnone => ⟨n, rfl, ?_⟩⟩
    by_cases hshort : n < HEADERBYTES
    · rw [if_pos hshort] at hnone
      cases hnone
    · exact Nat.not_lt.mp hshort

theorem closed_file_reads {nOpened nHeader : Nat} {a : Avi} (hopen : openOutputFile (some nOpened) = some a)
    (hheader : HEADERBYTES ≤ nHeader) (cs : List Call) :
    ∃ file rest, (run step { avi := a } cs).avi.close (some nHeader) = some (file ++ rest, none) ∧
      Riff.decode file = some [(run step { avi := a } cs).avi.tree (run step { avi := a } cs).chunks] ∧
      ((run step { avi := a } cs).failed = false → rest = []) :=
  close_reads (always_of_step (fun _ c h => step_holds c h) (holds_opened hopen) cs).last
    (always_of_step (fun _ c h => step_counts c h) (counts_opened hopen) cs).last hheader

/-- A frame whose data do not fit any more, and one that is written over what is left of it. -/
def twoFrames : List Call :=
  [.setVideo 1 1 40000 (.ofChars 'm' 'j' 'p' 'g'), .writeFrame [1, 2, 3, 4, 5, 6] 0 ⟨8, 5⟩, .writeFrame [7, 8, 9] 0 ⟨8, 4⟩]

theorem closed_file_reads_twoFrames :
    ∃ file rest,
      (run step { avi := reserved } twoFrames).avi.close (some HEADERBYTES) = some (file ++ rest, none) ∧
      Riff.decode file =
        some [(run step { avi := reserved } twoFrames).avi.tree (run step { avi := reserved } twoFrames).chunks] ∧
      ((run step { avi := reserved } twoFrames).failed = false → rest = []) :=
  closed_file_reads (openOutputFile_of_whole (Nat.le_refl _)) (Nat.le_refl _) twoFrames

def totalFrames (avih : List UInt8) : Nat := ofBytes true ((avih.drop 16).take 4)

theorem totalFrames_mainHeader (a : Avi) : totalFrames a.mainHeader = uint32 a.videoFrames :=
  ofBytes_le32 (uint32_lt _)

theorem frames_counted {nOpened nHeader : Nat} {a : Avi} (hopen : openOutputFile (some nOpened) = some a)
    (hheader : HEADERBYTES ≤ nHeader) (cs : List Call) :
    ∃ file rest avih streams junk chunks,
      (run step { avi := a } cs).avi.close (some nHeader) = some (file ++ rest, none) ∧
      Riff.decode file = some [.list Riff.riff (.ofChars 'A' 'V' 'I' ' ')
        [.list Riff.list (.ofChars 'h' 'd' 'r' 'l') (.data (.ofChars 'a' 'v' 'i' 'h') avih :: streams), junk,
          .list Riff.list (.ofChars 'm' 'o' 'v' 'i') chunks]] ∧
      totalFrames avih = uint32 (chunks.countP isVideo + (run step { avi := a } cs).duplicated : Nat) := by
  have hcounts := (always_of_step (fun _ c h => step_counts c h) (counts_opened hopen) cs).last
  obtain ⟨file, rest, hclose, hdecode, -⟩ :=
    close_reads (always_of_step (fun _ c h => step_holds c h) (holds_opened hopen) cs).last hcounts hheader
  refine ⟨file, rest, _, _, _, _, hclose, hdecode, ?_⟩
  rw [totalFrames_mainHeader, hcounts.frames]

theorem frames_counted_twoFrames :
    ∃ file rest avih streams junk chunks,
      (run step { avi := reserved } twoFrames).avi.close (some HEADERBYTES) = some (file ++ rest, none) ∧
      Riff.decode file = some [.list Riff.riff (.ofChars 'A' 'V' 'I' ' ')
        [.list Riff.list (.ofChars 'h' 'd' 'r' 'l') (.data (.ofChars 'a' 'v' 'i' 'h') avih :: streams), junk,
          .list Riff.list (.ofChars 'm' 'o' 'v' 'i') chunks]] ∧
      totalFrames avih = uint32 (chunks.countP isVideo + (run step { avi := reserved } twoFrames).duplicated : Nat) :=
  frames_counted (openOutputFile_of_whole (Nat.le_refl _)) (Nat.le_refl _) twoFrames

theorem length_bounded {nOpened : Nat} {a : Avi} (hopen : openOutputFile (some nOpened) = some a)
    (cs : List Call) :
    Always step (fun r => -1 - 16 * (r.duplicated : Int) ≤ r.avi.bytesRemain ∧
      (r.duplicated = 0 → ∀ length < 2 ^ 27, r.avi.lengthWith length < 2 ^ 31)) { avi := a } cs := by
  refine (always_of_step (fun _ c h => step_counts c h) (counts_opened hopen) cs).mono fun r h => ?_
  have hroom := h.room
  unfold AVI_MAX_LEN at hroom
  refine ⟨?_, fun hnone length hlength => ?_⟩
  · unfold bytesRemain AVI_MAX_LEN
    omega
  · unfold lengthWith
    omega

theorem length_bounded_twoFrames :
    Always step (fun r => -1 - 16 * (r.duplicated : Int) ≤ r.avi.bytesRemain ∧
      (r.duplicated = 0 → ∀ length < 2 ^ 27, r.avi.lengthWith length < 2 ^ 31))
      { avi := reserved } twoFrames :=
  length_bounded (openOutputFile_of_whole (Nat.le_refl _)) twoFrames

end Recording

end Esp32Cam.Avi
