/-
  Esp32Cam.Http.UploadSuccess — what an upload answers, and what has become of its body.

  The loop of the page is run with its handler: `Buffering` is the page between two chunks,
  with all that it has been given and whether all of it has been stored. What the handler
  answers is dropped, and so is what an append answers: an upload that has not been stored
  is reported like one that has (`a_short_file_is_reported_as_uploaded`).

  `success_is_real_iff` has the uploads whose success is real: those that do not come to
  their end, and those that are received without a negative result and find the page
  `Prepared`, a file being open, or about to be, with room for the body and nothing in it.
-/

import Esp32Cam.Http.Reception
import Esp32Cam.Http.FileUnderTransfer

namespace Esp32Cam.Http

open Esp32Cam.Lib Esp32Cam.Bft

/-- A request, what is received of it, what lies behind the scratch buffer at each chunk, and what
    each chunk would be allocated. -/
structure UploadRequest where
  fileName : List UInt8
  fileSize : Nat
  contentLen : Nat
  results : List RecvResult
  memory : Nat → Nat → UInt8
  new : Nat → Allocation
  word : contentLen < 2 ^ 32

/-- The page after some chunks: all that it has been given, and whether it has stored all. -/
structure Buffering where
  page : FwUpload
  chunks : Nat
  given : List UInt8
  stored : Bool
  deriving DecidableEq, Repr

namespace Buffering

def receive (q : UploadRequest) (b : Buffering) (input : List UInt8) : Buffering :=
  let (page, espErr) :=
    b.page.handleInputBytesFileBuffering ⟨.receiving input, q.fileName, q.fileSize⟩ (q.new b.chunks)
  { page   := page
    chunks := b.chunks + 1
    given  := b.given ++ input
    stored := b.stored && decide (espErr = .ok ∧
      page.fs.memoryPoolCurrentPosition = b.page.fs.memoryPoolCurrentPosition + input.length) }

def finish (q : UploadRequest) (b : Buffering) (espErr : EspErr) : Buffering :=
  { b with page :=
      (b.page.handleInputBytesFileBuffering ⟨.finished espErr, q.fileName, q.fileSize⟩ (q.new b.chunks)).1 }

/-- A call reads as many bytes as it is told, from the buffer on. -/
def handle (q : UploadRequest) (b : Buffering) : HandlerCall → Buffering
  | .receiving input inputSize => b.receive q (readMem (overlay (q.memory b.chunks) 0 input) 0 inputSize)
  | .finished espErr => b.finish q espErr

end Buffering

def upload (q : UploadRequest) (u : FwUpload) : Reception Buffering :=
  run (Reception.step (Buffering.handle q)) (Reception.start (Buffering.handle q) ⟨u, 0, [], true⟩ q.contentLen) q.results

/-- The file is open, all has been stored, and it contains what has been received. -/
structure Real (s : Reception Buffering) : Prop where
  opened : s.handler.page.file.isValid = true
  descriptor : s.handler.page.file.fileDescriptor.raw = s.handler.page.fs.memoryPool
  stored : s.handler.stored = true
  contents : s.handler.page.fs.pool.take s.handler.page.fs.memoryPoolNextWritePosition = s.received

/-- Success is answered, and reported, for a file that is there; an upload that could not be stored fails,
    and its file is closed. -/
structure SuccessIsReal (u : FwUpload) (s : Reception Buffering) : Prop where
  answered : s.response = some "File uploaded successfully" → Real s
  reported : u.queued < s.handler.page.queued → Real s
  refused : u.bufferedFileTransferInstance = true → u.mediumPriorityInstance = true → s.handler.stored = false →
    s.returned.isSome = true → s.returned = some .fail ∧ s.handler.page.file.isValid = false

/-- The page has, or gets with the first chunk, an empty file with room for the body. -/
def Prepared (q : UploadRequest) (u : FwUpload) : Prop :=
  if q.contentLen = 0 then
    u.file.isValid = true ∧ u.file.fileDescriptor.raw = u.fs.memoryPool ∧
      u.fs.pool.take u.fs.memoryPoolNextWritePosition = []
  else
    u.bufferedFileTransferInstance = true ∧ u.mediumPriorityInstance = true ∧ u.fs.memoryPoolCurrentPosition = 0 ∧
      if u.initialized then
        u.file.isValid = true ∧ u.file.fileDescriptor.raw = u.fs.memoryPool ∧ q.contentLen ≤ u.fs.memoryPoolSize
      else CanOpen u.fs q.fileSize (q.new 0) ∧ q.contentLen ≤ q.fileSize

/-! ## The file -/

namespace FwUpload

section
variable {u : FwUpload} {q : UploadRequest}

theorem append_fs_of_none (h : u.file.fileSystem = false) (input : List UInt8) : (u.append input).fs = u.fs := by
  show (u.file.append u.fs input).1 = _
  unfold File.append
  rw [h]
  rfl

theorem setFile_setFile (fs fs' : SingleBufferRamFileSystem) (f f' : File) :
    (u.setFile fs f).setFile fs' f' = u.setFile fs' f' := by
  simp only [setFile, Option.map_map, Function.comp_def]

/-- The cursor moves by all of a chunk exactly when there is a file with room for it. -/
theorem append_moves_iff {input : List UInt8} (hne : input ≠ []) :
    (u.append input).fs.memoryPoolCurrentPosition = u.fs.memoryPoolCurrentPosition + input.length ↔
      u.file.fileSystem = true ∧ u.fs.memoryPoolCurrentPosition + input.length ≤ u.fs.memoryPoolSize := by
  have hpos := List.length_pos_iff.mpr hne
  cases hfs : u.file.fileSystem with
  | false =>
    rw [append_fs_of_none hfs]
    exact ⟨fun h => by omega, fun h => by cases h.1⟩
  | true =>
    rw [append_fs hfs]
    show u.fs.memoryPoolCurrentPosition + min input.length (u.fs.memoryPoolSize - u.fs.memoryPoolCurrentPosition) = _ ↔ _
    refine ⟨fun h => ⟨rfl, by omega⟩, fun h => ?_⟩
    have hroom := h.2
    omega

/-- Chunks are stored like the body that they make. -/
theorem append_append {xs ys : List UInt8} (h : u.file.fileSystem = true)
    (hroom : u.fs.memoryPoolCurrentPosition + (xs ++ ys).length ≤ u.fs.memoryPoolSize) :
    (u.append xs).append ys = u.append (xs ++ ys) := by
  have hfs : ((u.append xs).append ys).fs = (u.append (xs ++ ys)).fs := by
    rw [append_fs (u := u.append xs) h, append_fs h, append_fs h]
    exact Bft.append_append u.file.fileDescriptor hroom
  exact (setFile_setFile (u := u) _ _ _ _).trans (congrArg (fun fs => u.setFile fs u.file) hfs)

@[simp] theorem append_size (u : FwUpload) (input : List UInt8) :
    (u.append input).fs.memoryPoolSize = u.fs.memoryPoolSize := by
  cases hfs : u.file.fileSystem with
  | false => rw [append_fs_of_none hfs]
  | true =>
    rw [append_fs hfs]
    exact length_append u.fs u.file.fileDescriptor input

/-- The first chunk opens the file, or has it. -/
def Admitted (q : UploadRequest) (u : FwUpload) : Prop := u.initialized = true ∨ CanOpen u.fs q.fileSize (q.new 0)

def opened (q : UploadRequest) (u : FwUpload) : FwUpload :=
  if u.initialized then u
  else { u.setFile (tryOpenFileWriteBinary u.fs q.fileName q.fileSize (q.new 0)).1
      (tryOpenFileWriteBinary u.fs q.fileName q.fileSize (q.new 0)).2 with initialized := true }

theorem opened_of_initialized (h : u.initialized = true) : u.opened q = u := if_pos h

theorem opened_of_canOpen (h : u.initialized = false) (hopen : CanOpen u.fs q.fileSize (q.new 0)) : u.opened q =
    { u.setFile { u.fs with memoryPool := (q.new 0).pointer, pool := (q.new 0).block q.fileSize }
        (File.new ⟨(q.new 0).pointer⟩ q.fileName) with initialized := true } := by
  unfold opened
  rw [tryOpenFileWriteBinary_opened hopen, h]
  rfl

@[simp] theorem opened_initialized : (u.opened q).initialized = true := by
  unfold opened
  split
  · assumption
  · rfl

@[simp] theorem opened_cursor : (u.opened q).fs.memoryPoolCurrentPosition = u.fs.memoryPoolCurrentPosition := by
  cases hinit : u.initialized with
  | true => rw [opened_of_initialized hinit]
  | false =>
    unfold opened
    rw [hinit]
    show (tryOpenFileWriteBinary u.fs q.fileName q.fileSize (q.new 0)).1.memoryPoolCurrentPosition = _
    by_cases hopen : CanOpen u.fs q.fileSize (q.new 0)
    · rw [tryOpenFileWriteBinary_opened hopen]
    · rw [tryOpenFileWriteBinary_refused hopen]

/-- The first chunk. -/
theorem handleReceiving_first (h : u.Admitted q) (input : List UInt8) (state : InputBytesReceptionState) :
    u.handleReceiving ⟨state, q.fileName, q.fileSize⟩ input (q.new 0) = ((u.opened q).append input, .ok) := by
  cases hinit : u.initialized with
  | true => rw [handleReceiving_appended hinit, opened_of_initialized hinit]
  | false =>
    have hopen : CanOpen u.fs q.fileSize (q.new 0) := h.resolve_left (by rw [hinit]; exact Bool.false_ne_true)
    rw [handleReceiving_opened hinit hopen, opened_of_canOpen hinit hopen]

theorem handleReceiving_not_admitted (h : ¬ u.Admitted q) (input : List UInt8) (state : InputBytesReceptionState) :
    (u.handleReceiving ⟨state, q.fileName, q.fileSize⟩ input (q.new 0)).2 = .fail := by
  have hinit : u.initialized = false := Bool.eq_false_iff.mpr fun hinit => h (.inl hinit)
  rw [handleReceiving_refused hinit fun hopen => h (.inr hopen)]

/-- A chunk changes neither the registered instances nor the notifications on the queue. -/
theorem handleReceiving_kept (c : InputBytesIterationContext) (input : List UInt8) (new : Allocation) :
    (u.handleReceiving c input new).1.bufferedFileTransferInstance = u.bufferedFileTransferInstance ∧
      (u.handleReceiving c input new).1.mediumPriorityInstance = u.mediumPriorityInstance ∧
      (u.handleReceiving c input new).1.queued = u.queued := by
  cases hinit : u.initialized with
  | true =>
    rw [handleReceiving_appended hinit]
    exact ⟨rfl, rfl, rfl⟩
  | false =>
    by_cases hopen : CanOpen u.fs c.fileSize new
    · rw [handleReceiving_opened hinit hopen]
      exact ⟨rfl, rfl, rfl⟩
    · rw [handleReceiving_refused hinit hopen]
      exact ⟨rfl, rfl, rfl⟩

end

end FwUpload

/-! ## One chunk -/

def Registered (u : FwUpload) : Prop := u.bufferedFileTransferInstance = true ∧ u.mediumPriorityInstance = true

def Stores (q : UploadRequest) (u : FwUpload) (n : Nat) : Prop :=
  Registered u ∧ u.Admitted q ∧ (u.opened q).file.fileSystem = true ∧
    (u.opened q).fs.memoryPoolCurrentPosition + n ≤ (u.opened q).fs.memoryPoolSize

/-- The page after the bytes that it has been given, where they are stored. -/
def after (q : UploadRequest) (u : FwUpload) (given : List UInt8) : FwUpload :=
  if given = [] then u else (u.opened q).append given

theorem handleInputBytes_not_registered {u : FwUpload} (h : ¬ Registered u) (c : InputBytesIterationContext)
    (new : Allocation) : (u.handleInputBytesFileBuffering c new).2 = .fail ∧
      (u.handleInputBytesFileBuffering c new).1 =
        { u with sErrorMessage := (u.handleInputBytesFileBuffering c new).1.sErrorMessage } := by
  unfold FwUpload.handleInputBytesFileBuffering
  split
  · exact ⟨rfl, rfl⟩
  · rename_i hbft
    split
    · exact ⟨rfl, rfl⟩
    · rename_i hwq
      have hregistered : Registered u := by simpa [Registered] using And.intro hbft hwq
      exact absurd hregistered h

/-- What holds of the page, from `u` on, before the upload has ended. -/
structure Tracks (q : UploadRequest) (u : FwUpload) (b : Buffering) : Prop where
  registered : b.page.bufferedFileTransferInstance = u.bufferedFileTransferInstance ∧
    b.page.mediumPriorityInstance = u.mediumPriorityInstance
  queued : b.page.queued = u.queued
  stored : b.stored = true ↔ b.given = [] ∨ Stores q u b.given.length
  page : b.stored = true → b.page = after q u b.given
  chunks : b.given = [] → b.chunks = 0

section
variable {q : UploadRequest} {u : FwUpload} {b : Buffering}

theorem Tracks.start (q : UploadRequest) (u : FwUpload) : Tracks q u ⟨u, 0, [], true⟩ :=
  ⟨⟨rfl, rfl⟩, rfl, ⟨fun _ => .inl rfl, fun _ => rfl⟩, fun _ => rfl, fun _ => rfl⟩

theorem Stores.mono {m n : Nat} (h : Stores q u n) (hle : m ≤ n) : Stores q u m :=
  ⟨h.1, h.2.1, h.2.2.1, Nat.le_trans (Nat.add_le_add_left hle _) h.2.2.2⟩

theorem registered_congr {u v : FwUpload} (h : v.bufferedFileTransferInstance = u.bufferedFileTransferInstance ∧
    v.mediumPriorityInstance = u.mediumPriorityInstance) : Registered v ↔ Registered u := by
  unfold Registered
  rw [h.1, h.2]

/-- A chunk changes neither the registered instances nor the notifications on the queue. -/
theorem handleInputBytes_kept (u : FwUpload) (c : InputBytesIterationContext) (input : List UInt8)
    (hc : c.receptionState = .receiving input) (new : Allocation) :
    (u.handleInputBytesFileBuffering c new).1.bufferedFileTransferInstance = u.bufferedFileTransferInstance ∧
      (u.handleInputBytesFileBuffering c new).1.mediumPriorityInstance = u.mediumPriorityInstance ∧
      (u.handleInputBytesFileBuffering c new).1.queued = u.queued := by
  by_cases h : Registered u
  · rw [FwUpload.handleInputBytes_of_instances h.1 h.2, hc]
    exact FwUpload.handleReceiving_kept c input new
  · rw [(handleInputBytes_not_registered h c new).2]
    exact ⟨rfl, rfl, rfl⟩

theorem receive_of_call {input : List UInt8} {v : FwUpload} {e : EspErr} (hstored : b.stored = true)
    (h : b.page.handleInputBytesFileBuffering ⟨.receiving input, q.fileName, q.fileSize⟩ (q.new b.chunks) = (v, e)) :
    ((b.receive q input).stored = true ↔
      e = .ok ∧ v.fs.memoryPoolCurrentPosition = b.page.fs.memoryPoolCurrentPosition + input.length) ∧
      (b.receive q input).page = v := by
  unfold Buffering.receive
  rw [h]
  refine ⟨?_, rfl⟩
  show (b.stored && decide _) = true ↔ _
  rw [hstored, Bool.true_and, decide_eq_true_iff]

theorem receive_of_fail {input : List UInt8}
    (h : (b.page.handleInputBytesFileBuffering ⟨.receiving input, q.fileName, q.fileSize⟩ (q.new b.chunks)).2 = .fail) :
    (b.receive q input).stored ≠ true := by
  unfold Buffering.receive
  simp [h]

/-- The first bytes. -/
theorem Tracks.receive_first (hb : Tracks q u b) {input : List UInt8} (hne : input ≠ []) (hfirst : b.given = [])
    (hregistered : Registered u) (hstored : b.stored = true) :
    ((b.receive q input).stored = true ↔ Stores q u input.length) ∧
      ((b.receive q input).stored = true → (b.receive q input).page = (u.opened q).append input) := by
  have hu : b.page = u := (hb.page hstored).trans (if_pos hfirst)
  have hcall : b.page.handleInputBytesFileBuffering ⟨.receiving input, q.fileName, q.fileSize⟩ (q.new b.chunks) =
      u.handleReceiving ⟨.receiving input, q.fileName, q.fileSize⟩ input (q.new 0) := by
    rw [hu, hb.chunks hfirst, FwUpload.handleInputBytes_of_instances hregistered.1 hregistered.2]
  by_cases hadmitted : u.Admitted q
  · rw [FwUpload.handleReceiving_first hadmitted] at hcall
    obtain ⟨hiff, hpage⟩ := receive_of_call hstored hcall
    refine ⟨hiff.trans ?_, fun _ => hpage⟩
    have hmoves := FwUpload.append_moves_iff (u := u.opened q) hne
    rw [FwUpload.opened_cursor] at hmoves
    unfold Stores
    rw [FwUpload.opened_cursor, hu]
    exact ⟨fun h => ⟨hregistered, hadmitted, hmoves.mp h.2⟩, fun h => ⟨rfl, hmoves.mpr h.2.2⟩⟩
  · have hnot : (b.receive q input).stored ≠ true := by
      apply receive_of_fail
      rw [hcall]
      exact FwUpload.handleReceiving_not_admitted hadmitted input (.receiving input)
    exact ⟨⟨fun h => absurd h hnot, fun h => absurd h.2.1 hadmitted⟩, fun h => absurd h hnot⟩

/-- Bytes behind others that have been stored. -/
theorem Tracks.receive_next (hb : Tracks q u b) {input : List UInt8} (hne : input ≠ []) (hgiven : b.given ≠ [])
    (hstored : b.stored = true) :
    ((b.receive q input).stored = true ↔ Stores q u (b.given ++ input).length) ∧
      ((b.receive q input).stored = true → (b.receive q input).page = (u.opened q).append (b.given ++ input)) := by
  obtain ⟨hregistered, hadmitted, hfs, hroom⟩ := (hb.stored.mp hstored).resolve_left hgiven
  have hu : b.page = (u.opened q).append b.given := (hb.page hstored).trans (if_neg hgiven)
  have hinit : b.page.initialized = true := by
    rw [hu]
    exact FwUpload.opened_initialized
  have hfile : b.page.file.fileSystem = true := by
    rw [hu]
    exact hfs
  have hsize : b.page.fs.memoryPoolSize = (u.opened q).fs.memoryPoolSize := by
    rw [hu, FwUpload.append_size]
  have hcursor := (FwUpload.append_moves_iff hgiven).mpr ⟨hfs, hroom⟩
  rw [← hu] at hcursor
  have hb' : Registered b.page := (registered_congr hb.registered).mpr hregistered
  have hcall : b.page.handleInputBytesFileBuffering ⟨.receiving input, q.fileName, q.fileSize⟩ (q.new b.chunks) =
      (b.page.append input, .ok) := by
    rw [FwUpload.handleInputBytes_of_instances hb'.1 hb'.2]
    exact FwUpload.handleReceiving_appended hinit input
  obtain ⟨hiff, hpage⟩ := receive_of_call hstored hcall
  have hmoves : (b.page.append input).fs.memoryPoolCurrentPosition = b.page.fs.memoryPoolCurrentPosition + input.length ↔
      (u.opened q).fs.memoryPoolCurrentPosition + (b.given ++ input).length ≤ (u.opened q).fs.memoryPoolSize := by
    rw [FwUpload.append_moves_iff hne, hcursor, hsize, List.length_append, Nat.add_assoc]
    exact ⟨fun h => h.2, fun h => ⟨hfile, h⟩⟩
  refine ⟨hiff.trans ⟨fun h => ⟨hregistered, hadmitted, hfs, hmoves.mp h.2⟩, fun h => ⟨rfl, hmoves.mpr h.2.2.2⟩⟩, ?_⟩
  intro h
  rw [hpage, hu]
  exact FwUpload.append_append hfs (hmoves.mp (hiff.mp h).2)

/-- Whether a chunk is stored too, and what the page is then. -/
theorem Tracks.receive_stored (hb : Tracks q u b) {input : List UInt8} (hne : input ≠ []) (hstored : b.stored = true) :
    ((b.receive q input).stored = true ↔ Stores q u (b.given ++ input).length) ∧
      ((b.receive q input).stored = true → (b.receive q input).page = after q u (b.given ++ input)) := by
  have hmore : b.given ++ input ≠ [] := fun h => hne (List.append_eq_nil_iff.mp h).2
  rw [after, if_neg hmore]
  by_cases hregistered : Registered u
  · by_cases hfirst : b.given = []
    · rw [hfirst, List.nil_append]
      exact hb.receive_first hne hfirst hregistered hstored
    · exact hb.receive_next hne hfirst hstored
  · obtain ⟨hfail, -⟩ := handleInputBytes_not_registered (mt (registered_congr hb.registered).mp hregistered)
      ⟨.receiving input, q.fileName, q.fileSize⟩ (q.new b.chunks)
    have hnot : (b.receive q input).stored ≠ true := receive_of_fail hfail
    exact ⟨⟨fun h => absurd h hnot, fun h => absurd h.1 hregistered⟩, fun h => absurd h hnot⟩

/-- A chunk keeps what is tracked. -/
theorem Tracks.receive (hb : Tracks q u b) {input : List UInt8} (hne : input ≠ []) : Tracks q u (b.receive q input) := by
  have hmore : b.given ++ input ≠ [] := fun h => hne (List.append_eq_nil_iff.mp h).2
  obtain ⟨hbft, hwq, hqueued⟩ :=
    handleInputBytes_kept b.page ⟨.receiving input, q.fileName, q.fileSize⟩ input rfl (q.new b.chunks)
  have hregistered := And.intro (hbft.trans hb.registered.1) (hwq.trans hb.registered.2)
  cases hstored : b.stored with
  | true =>
    obtain ⟨hiff, hpage⟩ := hb.receive_stored hne hstored
    exact ⟨hregistered, hqueued.trans hb.queued, hiff.trans ⟨.inr, fun h => h.resolve_left hmore⟩, hpage,
      fun h => absurd h hmore⟩
  | false =>
    have hnot : (b.receive q input).stored ≠ true := by
      unfold Buffering.receive
      simp [hstored]
    have hshort : ¬ Stores q u (b.given ++ input).length := by
      intro h
      have hbefore := h.mono (List.length_append ▸ Nat.le_add_right b.given.length input.length)
      have htrue := hb.stored.mpr (.inr hbefore)
      rw [hstored] at htrue
      cases htrue
    exact ⟨hregistered, hqueued.trans hb.queued,
      ⟨fun h => absurd h hnot, fun h => absurd (h.resolve_left hmore) hshort⟩, fun h => absurd h hnot,
      fun h => absurd h hmore⟩

/-! ## All results -/

structure Uploaded (q : UploadRequest) (u : FwUpload) (s : Reception Buffering) : Prop where
  pending : s.returned = none → Tracks q u s.handler ∧ s.response = none
  done : s.returned = some .ok →
    s.response = some "File uploaded successfully" ∧ ∃ b, Tracks q u b ∧ s.handler = b.finish q .ok
  failed : s.returned = some .fail → s.response = some "Failed to receive file" ∧
    s.handler.page.queued = u.queued ∧ (Registered u → s.handler.page.file.isValid = false)

/-- A failed upload is not reported, and its file is closed. -/
theorem Tracks.finish_fail (hb : Tracks q u b) : (b.finish q .fail).page.queued = u.queued ∧
    (Registered u → (b.finish q .fail).page.file.isValid = false) := by
  by_cases hregistered : Registered u
  · have hb' : Registered b.page := (registered_congr hb.registered).mpr hregistered
    have hcall : (b.finish q .fail).page = b.page.reset := by
      unfold Buffering.finish
      rw [FwUpload.handleInputBytes_of_instances hb'.1 hb'.2]
      rfl
    rw [hcall]
    exact ⟨hb.queued, fun _ => FwUpload.reset_file_closed b.page⟩
  · have hcall := (handleInputBytes_not_registered (mt (registered_congr hb.registered).mp hregistered)
      ⟨.finished .fail, q.fileName, q.fileSize⟩ (q.new b.chunks)).2
    refine ⟨?_, fun h => absurd h hregistered⟩
    unfold Buffering.finish
    rw [hcall]
    exact hb.queued

/-- The end of an upload leaves the file as it is. -/
theorem finish_ok (q : UploadRequest) (b : Buffering) :
    (b.finish q .ok).page.file = b.page.file ∧ (b.finish q .ok).page.fs = b.page.fs := by
  unfold Buffering.finish FwUpload.handleInputBytesFileBuffering
  split
  · exact ⟨rfl, rfl⟩
  · split <;> exact ⟨rfl, rfl⟩

theorem readMem_ne_nil (m : Nat → UInt8) {n : Nat} (h : 0 < n) : readMem m 0 n ≠ [] := by
  apply List.ne_nil_of_length_pos
  rw [length_readMem]
  exact h

open Reception in
theorem uploaded (q : UploadRequest) (u : FwUpload) : Uploaded q u (upload q u) := by
  obtain ⟨s, hstart, hremaining, hbuffer, hhandler, hresponse, hnone, -⟩ :=
    start_eq (Buffering.handle q) ⟨u, 0, [], true⟩ q.contentLen
  have hs : Sane s := ⟨hremaining.trans_lt q.word, hbuffer⟩
  have hrule := run_rule (Buffering.handle q) (P := fun s _ v => Tracks q u s.handler → s.response = none → Uploaded q u v)
    ?_ ?_ ?_ ?_ ?_ hs hnone q.results
  · unfold upload
    rw [hstart]
    apply hrule
    · rw [hhandler]
      exact .start q u
    · exact hresponse
  · intro s rs _ _ hb _
    exact ⟨fun h => (by cases h), fun _ => ⟨rfl, s.handler, hb, rfl⟩, fun h => (by cases h)⟩
  · intro s hnone _ hb hresponse
    refine ⟨fun _ => ⟨hb, hresponse⟩, ?_, ?_⟩ <;>
    · intro h
      rw [hnone] at h
      cases h
  · intro s rs _ _ hb _
    exact ⟨fun h => (by cases h), fun h => (by cases h), fun _ => ⟨rfl, hb.finish_fail⟩⟩
  · intro s data rs v hmore hne _ ih hb hresponse
    exact ih (hb.receive (readMem_ne_nil _ (taken_bounds hmore hne).1)) hresponse
  · intro s code rs v _ _ ih hb hresponse
    exact ih (hb.receive (readMem_ne_nil _ (Nat.lt_of_lt_of_le (by decide) (uint32_code code)))) hresponse

/-! ## What has been received and what has been given -/

open Reception in
/-- A piece is given to the page as it has been received. -/
theorem given_of_delivered (s : Reception Buffering) {data : List UInt8} (hs : Sane s) (hmore : s.remaining ≠ 0)
    (hne : data ≠ []) :
    (s.delivered (Buffering.handle q) data).handler.given = s.handler.given ++ s.taken data := by
  have hsane : Sane (s.delivered (Buffering.handle q) data) := delivered_sane hs hmore hne
  have hlength : (s.taken data).length ≤ (splice s.buffer 0 (s.taken data)).length :=
    (taken_bounds hmore hne).2.2.trans_eq hsane.buffer.symm
  have htake := take_splice s.buffer (s.taken data) 0 (Nat.zero_le _)
  rw [Nat.zero_add] at htake
  show s.handler.given ++ readMem (overlay (q.memory s.handler.chunks) 0 (splice s.buffer 0 (s.taken data))) 0
    (s.taken data).length = _
  rw [readMem_overlay_take _ _ hlength, htake]
  rfl

/-- What the page has been given of an upload that comes to its end: what has been received, or more. -/
structure Given (s v : Reception Buffering) (rs : List RecvResult) : Prop where
  same : s.handler.given = s.received → Reception.Completes false s.remaining rs →
    v.handler.given = v.received ∧ v.received.length = s.received.length + s.remaining
  still : s.received.length < s.handler.given.length → v.received.length < v.handler.given.length
  more : s.received.length ≤ s.handler.given.length → ¬ Reception.Completes false s.remaining rs →
    v.received.length < v.handler.given.length

open Reception in
theorem given_rule (q : UploadRequest) {s : Reception Buffering} (hs : Sane s) (hnone : s.returned = none)
    (rs : List RecvResult) : Completes true s.remaining rs →
      Given s (run (step (Buffering.handle q)) (Reception.finish (Buffering.handle q) s) rs) rs := by
  apply run_rule (Buffering.handle q) (P := fun s rs v => Completes true s.remaining rs → Given s v rs) ?_ ?_ ?_ ?_ ?_ hs hnone
  · intro s rs _ hzero _
    refine ⟨fun h _ => ⟨h, ?_⟩, id, fun _ hnot => ?_⟩
    · rw [hzero]
      rfl
    · rw [hzero] at hnot
      exact absurd (completes_zero false rs) hnot
  · intro s _ hmore hc
    exact absurd hc hmore
  · intro s rs _ hmore hc
    exact absurd rfl ((completes_received hmore).mp hc).1
  · intro s data rs v hmore hne hs ih hc
    have hgiven := given_of_delivered (q := q) s hs hmore hne
    have hreceived : (s.delivered (Buffering.handle q) data).received = s.received ++ s.taken data := rfl
    have hremaining : (s.delivered (Buffering.handle q) data).remaining = s.remaining - (s.taken data).length := rfl
    have hle := (taken_bounds hmore hne).2.1
    have hrest := ih ((completes_received hmore).mp hc).2
    have hlength := congrArg List.length hgiven
    have hlength' := congrArg List.length hreceived
    rw [List.length_append] at hlength hlength'
    refine ⟨fun h hcf => ?_, fun h => hrest.still (by omega), fun h hnot => hrest.more (by omega) ?_⟩
    · obtain ⟨hsame, hcount⟩ := hrest.same (by rw [hgiven, h, hreceived]) ((completes_received hmore).mp hcf).2
      exact ⟨hsame, by omega⟩
    · exact fun hcf => hnot ((completes_received hmore).mpr ⟨hne, hcf⟩)
  · intro s code rs v hmore _ ih hc
    have hrest := ih ((completes_error hmore).mp hc).2
    have hlength : (s.misread (Buffering.handle q) code).handler.given.length =
        s.handler.given.length + uint32 code.val := by
      show (s.handler.given ++ readMem _ 0 _).length = _
      rw [List.length_append, length_readMem]
    have hreceived : (s.misread (Buffering.handle q) code).received = s.received := rfl
    have hcode := uint32_code code
    have hstill : s.received.length ≤ s.handler.given.length → v.received.length < v.handler.given.length := by
      intro h
      apply hrest.still
      rw [hreceived, hlength]
      omega
    exact ⟨fun _ hcf => absurd ((completes_error hmore).mp hcf).1 Bool.false_ne_true, fun h => hstill (Nat.le_of_lt h),
      fun h _ => hstill h⟩

/-! ## What the file contains -/

/-- The stored bytes are behind what was before the cursor. -/
theorem contents_after {given : List UInt8} (hne : given ≠ []) (h : Stores q u given.length) :
    (after q u given).fs.pool.take (after q u given).fs.memoryPoolNextWritePosition =
      (u.opened q).fs.pool.take u.fs.memoryPoolCurrentPosition ++ given := by
  obtain ⟨-, -, hfs, hroom⟩ := h
  have hcursor : (u.opened q).fs.memoryPoolCurrentPosition ≤ (u.opened q).fs.pool.length := by
    unfold SingleBufferRamFileSystem.memoryPoolSize at hroom
    omega
  rw [after, if_neg hne, FwUpload.append_fs hfs, append_of_fits _ hroom]
  exact (take_splice _ _ _ hcursor).trans (by rw [FwUpload.opened_cursor])

theorem after_file (given : List UInt8) (hne : given ≠ []) : (after q u given).file = (u.opened q).file ∧
    (after q u given).fs.memoryPool = (u.opened q).fs.memoryPool := by
  rw [after, if_neg hne]
  refine ⟨rfl, ?_⟩
  cases hfs : (u.opened q).file.fileSystem with
  | false => rw [FwUpload.append_fs_of_none hfs]
  | true =>
    rw [FwUpload.append_fs hfs]
    rfl

/-- A page is prepared if it stores the body, in the file it has open, from the start on. -/
theorem prepared_iff (hne : q.contentLen ≠ 0) : Prepared q u ↔
    Stores q u q.contentLen ∧ u.fs.memoryPoolCurrentPosition = 0 ∧ (u.opened q).file.isValid = true ∧
      (u.opened q).file.fileDescriptor.raw = (u.opened q).fs.memoryPool := by
  unfold Prepared Stores Registered FwUpload.Admitted
  rw [if_neg hne, FwUpload.opened_cursor]
  cases hinit : u.initialized with
  | true =>
    rw [if_pos rfl, FwUpload.opened_of_initialized hinit, File.isValid_iff]
    constructor
    · intro h
      obtain ⟨hbft, hwq, hzero, hvalid, hraw, hroom⟩ := h
      exact ⟨⟨⟨hbft, hwq⟩, .inl rfl, hvalid.2, by omega⟩, hzero, hvalid, hraw⟩
    · intro h
      obtain ⟨⟨hregistered, _, _, hroom⟩, hzero, hvalid, hraw⟩ := h
      exact ⟨hregistered.1, hregistered.2, hzero, hvalid, hraw, by omega⟩
  | false =>
    rw [if_neg Bool.false_ne_true]
    constructor
    · intro h
      obtain ⟨hbft, hwq, hzero, hopen, hroom⟩ := h
      rw [FwUpload.opened_of_canOpen hinit hopen]
      refine ⟨⟨⟨hbft, hwq⟩, .inr hopen, rfl, ?_⟩, hzero, File.isValid_iff.mpr ⟨hopen.2.2, rfl⟩, rfl⟩
      rw [hzero, Nat.zero_add]
      exact hroom.trans_eq ((q.new 0).length_block q.fileSize).symm
    · intro h
      obtain ⟨⟨hregistered, hadmitted, _, hroom⟩, hzero, _, _⟩ := h
      have hopen : CanOpen u.fs q.fileSize (q.new 0) := hadmitted.resolve_left Bool.false_ne_true
      rw [FwUpload.opened_of_canOpen hinit hopen, hzero, Nat.zero_add] at hroom
      exact ⟨hregistered.1, hregistered.2, hzero, hopen, hroom.trans_eq ((q.new 0).length_block q.fileSize)⟩

structure Contains (b : Buffering) (bytes : List UInt8) : Prop where
  opened : b.page.file.isValid = true
  descriptor : b.page.file.fileDescriptor.raw = b.page.fs.memoryPool
  stored : b.stored = true
  contents : b.page.fs.pool.take b.page.fs.memoryPoolNextWritePosition = bytes

theorem real_iff_contains {s : Reception Buffering} (h : s.handler = b.finish q .ok) :
    Real s ↔ Contains b s.received := by
  obtain ⟨hfile, hfs⟩ := finish_ok q b
  have hstored : (b.finish q .ok).stored = b.stored := rfl
  constructor
  · intro hreal
    have hopened := hreal.opened
    have hdescriptor := hreal.descriptor
    have hcontents := hreal.contents
    rw [h, hfile] at hopened
    rw [h, hfile, hfs] at hdescriptor
    rw [h, hfs] at hcontents
    exact ⟨hopened, hdescriptor, hstored ▸ h ▸ hreal.stored, hcontents⟩
  · intro hcontains
    refine ⟨?_, ?_, ?_, ?_⟩
    · rw [h, hfile]
      exact hcontains.opened
    · rw [h, hfile, hfs]
      exact hcontains.descriptor
    · rw [h, hstored]
      exact hcontains.stored
    · rw [h, hfs]
      exact hcontains.contents

/-- It contains at least what the page has been given. -/
theorem Contains.length_le (hb : Tracks q u b) {bytes : List UInt8} (h : Contains b bytes) :
    b.given.length ≤ bytes.length := by
  by_cases hne : b.given = []
  · rw [hne]
    exact Nat.zero_le _
  · have hcontents := h.contents
    rw [hb.page h.stored, contents_after hne ((hb.stored.mp h.stored).resolve_left hne)] at hcontents
    rw [← hcontents, List.length_append]
    exact Nat.le_add_left _ _

/-- It contains what the page has been given exactly when the page was prepared for it. -/
theorem contains_given_iff (hb : Tracks q u b) (hlength : b.given.length = q.contentLen) :
    Contains b b.given ↔ Prepared q u := by
  by_cases hne : b.given = []
  · have hzero : q.contentLen = 0 := by
      rw [← hlength, hne]
      rfl
    have hstored : b.stored = true := hb.stored.mpr (.inl hne)
    have hpage : b.page = u := (hb.page hstored).trans (if_pos hne)
    rw [Prepared, if_pos hzero, hne, ← hpage]
    exact ⟨fun h => ⟨h.opened, h.descriptor, h.contents⟩, fun h => ⟨h.1, h.2.1, hstored, h.2.2⟩⟩
  · have hmore : q.contentLen ≠ 0 := by
      rw [← hlength]
      exact fun h => hne (List.eq_nil_of_length_eq_zero h)
    obtain ⟨hfile, hpool⟩ := after_file (q := q) (u := u) b.given hne
    rw [prepared_iff hmore, ← hlength]
    constructor
    · intro h
      have hstores := (hb.stored.mp h.stored).resolve_left hne
      have hopened := h.opened
      have hdescriptor := h.descriptor
      have hcontents := h.contents
      rw [hb.page h.stored] at hopened hdescriptor hcontents
      rw [hfile] at hopened
      rw [hfile, hpool] at hdescriptor
      rw [contents_after hne hstores] at hcontents
      have hcursor := congrArg List.length hcontents
      have hroom := hstores.2.2.2
      rw [List.length_append, List.length_take] at hcursor
      rw [FwUpload.opened_cursor] at hroom
      unfold SingleBufferRamFileSystem.memoryPoolSize at hroom
      exact ⟨hstores, by omega, hopened, hdescriptor⟩
    · intro h
      obtain ⟨hstores, hzero, hvalid, hraw⟩ := h
      have hstored : b.stored = true := hb.stored.mpr (.inr hstores)
      have hpage := hb.page hstored
      refine ⟨?_, ?_, hstored, ?_⟩
      · rw [hpage, hfile]
        exact hvalid
      · rw [hpage, hfile, hpool]
        exact hraw
      · rw [hpage, contents_after hne hstores, hzero, List.take_zero, List.nil_append]

end

/-! ## The answer -/

open Reception in
/-- **Success.** What an upload answers and reports is real exactly when it does not come to its end, or
    is received without a negative result on a page that is prepared for it. -/
theorem success_is_real_iff (q : UploadRequest) (u : FwUpload) : SuccessIsReal u (upload q u) ↔
    (Completes true q.contentLen q.results → Completes false q.contentLen q.results ∧ Prepared q u) := by
  obtain ⟨hpending, hdone, hfailed⟩ := uploaded q u
  obtain ⟨s, hstart, hremaining, hbuffer, hhandler, -, hnone, hreceived, -⟩ :=
    start_eq (Buffering.handle q) ⟨u, 0, [], true⟩ q.contentLen
  have hs : Sane s := ⟨hremaining.trans_lt q.word, hbuffer⟩
  have hok := returned_ok_iff (Buffering.handle q) hs hnone q.results
  have hgiven := given_rule q hs hnone q.results
  have hsame : s.handler.given = s.received := by rw [hhandler, hreceived]
  rw [← hstart, hremaining] at hok hgiven
  change _ → Given s (upload q u) q.results at hgiven
  by_cases hcompletes : Completes true q.contentLen q.results
  · obtain ⟨hresponse, b, hb, hhandler'⟩ := hdone (hok.mpr hcompletes)
    have hreal : SuccessIsReal u (upload q u) ↔ Real (upload q u) := by
      refine ⟨fun h => h.answered hresponse, fun h => ⟨fun _ => h, fun _ => h, fun _ _ hstored => ?_⟩⟩
      have hstored' := h.stored
      rw [hstored] at hstored'
      cases hstored'
    have hb' : (upload q u).handler.given = b.given := by rw [hhandler']; rfl
    obtain ⟨hequal, -, hlonger⟩ := hgiven hcompletes
    rw [hremaining, hreceived, hb'] at hequal hlonger
    rw [hreal, real_iff_contains hhandler']
    by_cases hclean : Completes false q.contentLen q.results
    · obtain ⟨hbytes, hlength⟩ := hequal (by rw [hhandler]) hclean
      have hcount : b.given.length = q.contentLen := by
        rw [hbytes, hlength, List.length_nil, Nat.zero_add]
      rw [← hbytes, contains_given_iff hb hcount]
      exact ⟨fun h _ => ⟨hclean, h⟩, fun h => (h hcompletes).2⟩
    · have hlong := hlonger (Nat.zero_le _) hclean
      refine iff_of_false (fun h => ?_) fun h => hclean (h hcompletes).1
      have hle := h.length_le hb
      omega
  · refine iff_of_true ?_ fun h => absurd h hcompletes
    cases hreturned : (upload q u).returned with
    | none =>
      obtain ⟨hb, hresponse⟩ := hpending hreturned
      refine ⟨fun h => ?_, fun h => ?_, fun _ _ _ h => ?_⟩
      · rw [hresponse] at h
        cases h
      · exact absurd hb.queued (Nat.ne_of_gt h)
      · rw [hreturned] at h
        cases h
    | some e =>
      cases e with
      | ok => exact absurd (hok.mp hreturned) hcompletes
      | fail =>
        obtain ⟨hresponse, hqueued, hclosed⟩ := hfailed hreturned
        refine ⟨fun h => ?_, fun h => ?_, fun hbft hwq _ _ => ⟨hreturned, hclosed ⟨hbft, hwq⟩⟩⟩
        · rw [hresponse] at h
          exact absurd h (by decide)
        · exact absurd hqueued (Nat.ne_of_gt h)

/-- Three bytes come for a file of two. -/
def shortFile : UploadRequest where
  fileName   := []
  fileSize   := 2
  contentLen := 3
  results    := [.received [1, 2, 3]]
  memory     := fun _ _ => 0
  new        := fun _ => ⟨4096, []⟩
  word       := by decide

/-- The file has the first two bytes, and the upload is answered and reported as a success. -/
theorem a_short_file_is_reported_as_uploaded :
    let s := upload shortFile (.init true true 0 0 0)
    s.response = some "File uploaded successfully" ∧ s.handler.page.queued = 1 ∧ s.received = [1, 2, 3] ∧
      s.handler.page.fs.pool = [1, 2] ∧ ¬ SuccessIsReal (.init true true 0 0 0) s := by
  refine ⟨by decide +kernel, by decide +kernel, by decide +kernel, by decide +kernel, fun h => ?_⟩
  have hcontents := (h.answered (by decide +kernel)).contents
  revert hcontents
  decide +kernel

end Esp32Cam.Http
