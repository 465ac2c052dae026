/-
  Esp32Cam.Bft.FetchedFile — a file fetched over HTTP, and what the flash holds of it.

  The whole way: the client's data goes to the buffer of the one file, the buffer to the
  Salute implementor, and its pages to the flash. The buffer is of 20 KiB, a number of
  pages, and the header takes four bytes of the first one, so that a buffer that is
  flushed before the end never ends on a page. So a file is stored exactly when all of it
  fits into the buffer (`fetched_file_is_stored_iff`).
-/

import Esp32Cam.Bft.FlashedFile
import Esp32Cam.Bft.HttpFetch

namespace Esp32Cam.Bft

open Esp32Cam.Lib Esp32Cam.Sys Flusher

/-! ## The flushes of a buffer -/

section
variable {capacity fill : Nat} {ns : List Nat}

theorem allFlushLengths_of_fits (hfits : fill + ns.sum ≤ capacity) : allFlushLengths capacity fill ns = [] := by
  induction ns generalizing fill with
  | nil => rfl
  | cons n ns ih =>
    rw [List.sum_cons] at hfits
    have hn : n ≤ capacity - fill := by omega
    rw [allFlushLengths, flushLengths, fillAfter, if_pos hn, if_pos hn, List.nil_append]
    exact ih (by omega)

/-- The first buffer that is flushed is full. -/
theorem allFlushLengths_of_exceeds (hfill : fill ≤ capacity) (hexceeds : capacity < fill + ns.sum) :
    ∃ rest, allFlushLengths capacity fill ns = capacity :: rest := by
  induction ns generalizing fill with
  | nil =>
    rw [List.sum_nil] at hexceeds
    omega
  | cons n ns ih =>
    rw [List.sum_cons] at hexceeds
    by_cases hn : n ≤ capacity - fill
    · rw [allFlushLengths, flushLengths, fillAfter, if_pos hn, if_pos hn, List.nil_append]
      exact ih (by omega) (by omega)
    · rw [allFlushLengths, flushLengths, if_neg hn]
      split
      · exact ⟨_, rfl⟩
      · exact ⟨_, rfl⟩

/-- From a buffer of whole pages nothing may be flushed before the end: the header is in front of it. -/
theorem flushedOnPages_iff {g : FlashMemoryGeometry} (hpage : kFileHeaderOffset < g.writeBlockSize)
    (hpages : g.writeBlockSize ∣ capacity) (hpositive : 0 < capacity) :
    Session.FlushedOnPages g capacity ns ↔ ns.sum ≤ capacity := by
  constructor
  · intro hflushes
    by_contra hexceeds
    obtain ⟨rest, hrest⟩ := allFlushLengths_of_exceeds (Nat.zero_le capacity) (by omega : capacity < 0 + ns.sum)
    have hfirst := hflushes 1
    rw [hrest, List.take_succ_cons, List.take_zero, List.sum_singleton] at hfirst
    have hheader := (Nat.dvd_add_left hpages).mp (hfirst hpositive (by omega))
    have := Nat.le_of_dvd (by decide) hheader
    omega
  · intro hfits k hk
    rw [allFlushLengths_of_fits (by omega), List.take_nil, List.sum_nil] at hk
    omega

end

namespace HttpFetch

open Esp32Cam.Mav.BufferedFileTransfer (HttpEvent)

/-! ## A fetch is an upload -/

section
variable {σ : Type} {subscriber : Subscriber σ} {h : HttpFetch σ} {s : Session σ} {file : File}

/-- The data of the client is appended. -/
theorem receiveAll_appendAll {chunks : List (List UInt8)} {ns : List Nat} (hfile : h.bftFile = some file)
    (hrun : h.session.appendAll subscriber file.fileDescriptor chunks = .ok (s, ns)) (hne : ∀ data ∈ chunks, data ≠ [])
    (rest : List Received) : ∃ happenings, h.receiveAll subscriber (chunks.map .chunk ++ rest) =
      (({ h with session := s } : HttpFetch σ).receiveAll subscriber rest).behind happenings := by
  induction chunks generalizing h ns with
  | nil =>
    cases hrun
    exact ⟨[], rfl⟩
  | cons data chunks ih =>
    obtain ⟨hdata, hne⟩ := List.forall_mem_cons.mp hne
    have hlength : data.length ≠ 0 := fun hzero => hdata (List.eq_nil_of_length_eq_zero hzero)
    rw [Session.appendAll] at hrun
    split at hrun
    · cases hrun
    · next s₁ n happend =>
      obtain ⟨⟨s₂, ns'⟩, hrest, heq⟩ := ok_of_map_eq_ok hrun
      obtain ⟨rfl, -⟩ := Prod.mk.inj heq
      have hreceive : h.receive subscriber (.chunk data) =
          { http := { h with session := s₁ }, happenings := [.appended (data.take n)] } := by
        simp only [receive, onFileChunkReceived, if_pos hlength, hfile, happend]
      obtain ⟨happenings, hall⟩ := ih (h := { h with session := s₁ }) hfile hrest hne
      refine ⟨.appended (data.take n) :: happenings, ?_⟩
      rw [List.map_cons, List.cons_append, receiveAll, hreceive]
      simp only [Option.isSome_none, Bool.false_eq_true, if_false, hall, Progress.behind_behind]
      rfl

theorem release_subscribers (h : HttpFetch σ) : h.release.session.subscribers = h.session.subscribers := by
  unfold release
  split
  · split <;> rfl
  · rfl

/-- The subscribers are told of what has been uploaded, and closing the file changes nothing for them. -/
theorem receiveAll_upload {chunks : List (List UInt8)} (hfile : h.bftFile = some file)
    (hrun : h.session.upload subscriber file chunks = .ok s) (hne : ∀ data ∈ chunks, data ≠ []) :
    (h.receiveAll subscriber (chunks.map .chunk ++ [.finish])).http.session.subscribers = s.subscribers := by
  obtain ⟨⟨s₁, ns⟩, happend, rfl⟩ := ok_of_map_eq_ok hrun
  obtain ⟨happenings, hall⟩ := receiveAll_appendAll hfile happend hne [.finish]
  rw [hall]
  show (({ h with session := s₁ } : HttpFetch σ).receiveAll subscriber [.finish]).http.session.subscribers = _
  simp only [receiveAll, receive, onFileChunkReceived, hfile, ne_eq, not_true_eq_false, if_false, Option.isSome_none,
    Bool.false_eq_true, Progress.behind, release_subscribers]

/-- What is received before the end is data. -/
theorem received_of_completes {c : Call} (h : c.Completes) : c.received = c.chunks.map .chunk ++ [.finish] := by
  obtain ⟨before, hsplit, hbefore⟩ := h.2.2
  have hdata : ∀ before : List Received, .finish ∉ before → (before.filterMap Received.chunk?).map .chunk = before := by
    intro before
    induction before with
    | nil => exact fun _ => rfl
    | cons r before ih =>
      intro hfinish
      cases r with
      | finish => exact absurd List.mem_cons_self hfinish
      | chunk data =>
        have hrest := ih fun hmem => hfinish (List.mem_cons_of_mem _ hmem)
        simp [Received.chunk?, hrest]
  have hchunks : c.chunks = before.filterMap Received.chunk? := by
    rw [Call.chunks, hsplit, List.filterMap_append]
    exact List.append_nil _
  rw [hchunks, hdata before hbefore, hsplit]

/-- A download that completes uploads its data to the file that is opened. -/
theorem fetchFile_upload {c : Call} (hi : Idle h) (hinstance : c.bufferedFileTransferInstance = true)
    (hopens : CanOpen h.session.ram kBufferSizeHint c.new) (hcompletes : c.Completes)
    (hrun : Session.upload subscriber
      { h.session with fs := (h.session.fs.tryOpenFileWriteBinary c.fileName kBufferSizeHint c.new).1 }
      (File.new ⟨c.new.pointer⟩ c.fileName) c.chunks = .ok s) :
    (h.fetchFile subscriber c).http.session.subscribers = s.subscribers := by
  obtain ⟨hfd, -, -⟩ := @Session.opened_of_tryOpen _ h.session c.fileName _ _ hi.bufferFile hi.cursor hopens
  have hvalid : (File.new ⟨c.new.pointer⟩ c.fileName).isValid = true := File.isValid_iff.mpr ⟨hopens.2.2, rfl⟩
  have hne : ∀ data ∈ c.chunks, data ≠ [] := by
    intro data hmem
    refine chunk_ne_nil (c := c) ?_
    rw [received_of_completes hcompletes]
    exact List.mem_append_left _ (List.mem_map_of_mem hmem)
  let h' : HttpFetch σ :=
    { session := { h.session with fs := (h.session.fs.tryOpenFileWriteBinary c.fileName kBufferSizeHint c.new).1 }
      bftFile := some (File.new ⟨c.new.pointer⟩ c.fileName) }
  have hfetch : (h.fetchFile subscriber c).http = (h'.handleEvents subscriber c.download.events).http := by
    unfold fetchFile
    simp only [hinstance, Bool.not_true, Bool.false_eq_true, if_false, hfd, hvalid, release, hi.bftFile,
      httpDownloadFileOverHttpGetByUrl, hcompletes.1]
    rfl
  rw [hfetch, handleEvents_eq]
  change (h'.receiveAll subscriber c.received).http.session.subscribers = _
  rw [received_of_completes hcompletes]
  exact receiveAll_upload rfl hrun hne

end

/-! ## A file in the flash -/

/-- The name of the file that has a partition in the Salute flash. -/
def kBftFileName : List UInt8 := [0x73, 0x68, 0x6F, 0x77]

structure Fetches (new : Allocation) (lengths : List Nat) (c : Call) : Prop where
  bufferedFileTransferInstance : c.bufferedFileTransferInstance = true
  fileName : c.fileName = kBftFileName
  new : c.new = new
  completes : c.Completes
  lengths : c.chunks.map List.length = lengths

def callOf (new : Allocation) (chunks : List (List UInt8)) : Call where
  fileName := kBftFileName
  new := new
  download := { events := chunks.map HttpEvent.onData ++ [HttpEvent.onFinish], espErr := .ok }

theorem chunks_callOf (new : Allocation) {chunks : List (List UInt8)} (hne : ∀ data ∈ chunks, data ≠ []) :
    (callOf new chunks).Completes ∧ (callOf new chunks).chunks = chunks := by
  have hreceived : (callOf new chunks).received = chunks.map .chunk ++ [.finish] := by
    show (chunks.map HttpEvent.onData ++ [HttpEvent.onFinish]).filterMap HttpFetch.received = _
    rw [List.filterMap_append, List.filterMap_map]
    refine congrArg (· ++ [Received.finish]) ?_
    rw [← List.filterMap_eq_map]
    refine List.filterMap_congr fun data hmem => ?_
    exact if_neg (hne data hmem)
  refine ⟨⟨rfl, rfl, chunks.map .chunk, hreceived, by simp⟩, ?_⟩
  rw [Call.chunks, hreceived, List.filterMap_append, List.filterMap_map]
  refine (List.append_nil _).trans ?_
  exact List.filterMap_some

def behind (flash : FlashMemory) : HttpFetch Device := start (some (flash, {}))

/-- **Files fetched to the flash.** The first file that is fetched, in data of these lengths, is stored, whatever
    its bytes are, exactly when it has any, and all of it fits into the buffer. -/
theorem fetched_file_is_stored_iff (flash : FlashMemory) (new : Allocation) (lengths : List Nat)
    (hfaults : flash.FaultFree) (hpage : kFileHeaderOffset < flash.geometry.writeBlockSize)
    (hpages : flash.geometry.writeBlockSize ∣ kBufferSizeHint) (hnew : new.pointer ≠ 0)
    (hlengths : ∀ n ∈ lengths, 0 < n) (hfits : kFileHeaderOffset + lengths.sum ≤ flash.geometry.size)
    (hword : kFileHeaderOffset + lengths.sum < 2 ^ 32) :
    (∀ c : Call, Fetches new lengths c → ∃ flash' flushingState,
      ((behind flash).fetchFile (flashing .salute saluteFlashMemoryPartitionTable) c).http.session.subscribers =
        some (flash', flushingState) ∧ Stored flash' 0 c.chunks.flatten) ↔
    0 < lengths.sum ∧ lengths.sum ≤ kBufferSizeHint := by
  let opened := Session.ofOpened flash kBftFileName kBufferSizeHint new
  have hfresh : Session.Fresh saluteFlashMemoryPartitionTable (File.new ⟨new.pointer⟩ kBftFileName) flash.geometry 0
    kBufferSizeHint flash {} opened := Session.ofOpened_fresh hfaults (if_pos rfl) hnew (by decide) (by decide)
  have hopens : CanOpen (behind flash).session.ram kBufferSizeHint new := ⟨rfl, by decide, hnew⟩
  have hi : Idle (behind flash) := ⟨rfl, rfl, rfl⟩
  have hfits' : 0 + 4 + lengths.sum ≤ flash.geometry.size := by unfold kFileHeaderOffset at hfits; omega
  have hword' : 0 + 4 + lengths.sum < 4294967296 := by unfold kFileHeaderOffset at hword; omega
  have hflushes : Session.FlushedOnPages flash.geometry kBufferSizeHint lengths ↔ lengths.sum ≤ kBufferSizeHint :=
    flushedOnPages_iff hpage hpages (by decide)
  have hupload : ∀ c : Call, Fetches new lengths c →
      ∃ s', opened.upload (flashing .salute saluteFlashMemoryPartitionTable) (File.new ⟨new.pointer⟩ kBftFileName) c.chunks =
          .ok s' ∧
        ((behind flash).fetchFile (flashing .salute saluteFlashMemoryPartitionTable) c).http.session.subscribers =
          s'.subscribers := by
    intro c hc
    obtain ⟨s', -, -, hrun, -⟩ := hfresh.upload c.chunks
    refine ⟨s', hrun, fetchFile_upload hi hc.bufferedFileTransferInstance ?_ hc.completes ?_⟩
    · rw [hc.new]
      exact hopens
    · rw [hc.new, hc.fileName]
      exact hrun
  constructor
  · intro hall
    suffices hstored : ∀ chunks : List (List UInt8), chunks.map List.length = lengths → Session.UploadStored
        saluteFlashMemoryPartitionTable (File.new ⟨new.pointer⟩ kBftFileName) 0 opened chunks by
      obtain ⟨-, hpos, hpages⟩ := hfresh.flushes_of_stored hpage (Nat.dvd_zero _) hfits' hword' hstored
      exact ⟨hpos, hflushes.mp hpages⟩
    intro chunks hchunks
    have hne : ∀ data ∈ chunks, data ≠ [] := by
      intro data hmem
      have hpos := hlengths data.length (hchunks ▸ List.mem_map_of_mem hmem)
      exact List.length_pos_iff.mp hpos
    obtain ⟨hcompletes, hdata⟩ := chunks_callOf new hne
    have hc : Fetches new lengths (callOf new chunks) := ⟨rfl, rfl, rfl, hcompletes, by rw [hdata]; exact hchunks⟩
    obtain ⟨s', hrun, hsubscribers⟩ := hupload _ hc
    obtain ⟨flash', flushingState, hdevice, hstored⟩ := hall _ hc
    rw [hdata] at hrun hstored
    exact ⟨s', flash', flushingState, hrun, hsubscribers.symm.trans hdevice, hstored⟩
  · intro hin c hc
    obtain ⟨s'', flash', flushingState, hrun', hdevice, hstored⟩ :=
      hfresh.stored hpage hfits' hword' hin.1 (hflushes.mpr hin.2) hc.lengths
    obtain ⟨s', hrun, hsubscribers⟩ := hupload c hc
    obtain rfl : s' = s'' := Except.ok.inj (hrun.symm.trans hrun')
    exact ⟨flash', flushingState, hsubscribers.trans hdevice, hstored⟩

/-- Pages of 2048 bytes, in blocks of 64. -/
def erasedFlash : FlashMemory where
  geometry := ⟨2048, 131072, 2, by decide, by decide, by decide, by decide, by decide⟩
  bytes := fun _ => 0xFF
  faults := fun _ => false
  trace := []

/-- A file of 20 KiB in two parts is stored, and not every file of one byte more is. -/
theorem a_byte_behind_the_buffer_spoils_the_file :
    (∀ c : Call, Fetches ⟨1, []⟩ [4096, 16384] c → ∃ flash flushingState,
      ((behind erasedFlash).fetchFile (flashing .salute saluteFlashMemoryPartitionTable) c).http.session.subscribers =
        some (flash, flushingState) ∧ Stored flash 0 c.chunks.flatten) ∧
    ¬ ∀ c : Call, Fetches ⟨1, []⟩ [4096, 16385] c → ∃ flash flushingState,
      ((behind erasedFlash).fetchFile (flashing .salute saluteFlashMemoryPartitionTable) c).http.session.subscribers =
        some (flash, flushingState) ∧ Stored flash 0 c.chunks.flatten := by
  constructor
  · exact (fetched_file_is_stored_iff erasedFlash ⟨1, []⟩ [4096, 16384] (fun _ => rfl) (by decide) (by decide) (by decide)
      (by decide) (by decide) (by decide)).mpr (by decide)
  · intro hall
    have hin := (fetched_file_is_stored_iff erasedFlash ⟨1, []⟩ [4096, 16385] (fun _ => rfl) (by decide) (by decide) (by decide)
      (by decide) (by decide) (by decide)).mp hall
    exact absurd hin (by decide)

end HttpFetch

end Esp32Cam.Bft
