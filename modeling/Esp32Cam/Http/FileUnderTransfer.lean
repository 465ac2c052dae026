/-
  Esp32Cam.Http.FileUnderTransfer — an upload while another one's file is sent.

  A file is under transfer from the end of its upload until the last pointer to it is
  released (`UnderTransfer`). `Immutable` asks of the page that it then refuses an upload:
  nothing is stored, no cursor moves, no chunk is answered with success and no end is
  reported.

  Nothing in the page asks whether a file is under transfer: the context stays
  `initialized` until the deleter runs, and a chunk goes where the context's file is.
  `immutable_iff`: files under transfer stay as they are exactly when no upload comes
  meanwhile, but for one that finds the context closed and the file system's pool taken
  (`Spared`). `kept_until_released` is the same said of the file: in such a run the bytes
  reported are the bytes sent. `the_second_upload_writes_into_the_first` is the shortest
  run that breaks it.
-/

import Esp32Cam.Lib.Run
import Esp32Cam.Http.FwUpload

namespace Esp32Cam.Http.FwUpload

open Esp32Cam.Lib Esp32Cam.Bft Esp32Cam.Mav

/-- A pointer to a file reported finished is queued, or held by the client. -/
def UnderTransfer (u : FwUpload) : Prop := 0 < u.queued ∨ u.client.requestRepeat.bftFile.isSome = true

/-- An upload that comes while a file is under transfer is refused. -/
def Immutable (u : FwUpload) : UploadEvent → Prop
  | .handleInputBytes c new =>
    u.UnderTransfer →
      let (u', result) := u.handleInputBytesFileBuffering c new
      u'.fs = u.fs ∧ u'.queued = u.queued ∧ (∀ input, c.receptionState = .receiving input → result = .fail)
  | _ => True

/-- The context has no file, and a chunk cannot open one. -/
def Spares (u : FwUpload) (c : InputBytesIterationContext) (new : Allocation) : Prop :=
  match c.receptionState with
  | .receiving _ => u.initialized = false ∧ ¬ CanOpen u.fs c.fileSize new
  | .finished .ok => False
  | .finished .fail => u.initialized = false

/-- No upload comes while a file is under transfer, but for one that has no effect. -/
def Spared (u : FwUpload) : UploadEvent → Prop
  | .handleInputBytes c new => u.UnderTransfer → u.Spares c new
  | _ => True

/-- The context is initialized exactly while its file is open. -/
structure Inv (u : FwUpload) : Prop where
  opened : u.initialized = true → u.file.isValid = true ∧ u.file.fileDescriptor.raw = u.fs.memoryPool ∧ u.fs.pool ≠ []
  closed : u.initialized = false → u.file.isValid = false
  registered : u.UnderTransfer → u.bufferedFileTransferInstance = true ∧ u.mediumPriorityInstance = true

section
variable {u : FwUpload} {c : InputBytesIterationContext} {new : Allocation}

/-! ## The context -/

theorem close_of_closed (h : u.file.isValid = false) : u.closeFile = u.setFile u.fs u.file := by
  simp only [closeFile, File.close, h, Bool.false_eq_true, if_false]

theorem reset_fs_of_closed (h : u.file.isValid = false) : u.reset.fs = u.fs := by
  show u.closeFile.fs = u.fs
  rw [close_of_closed h]
  rfl

theorem reset_fs_of_opened (hi : Inv u) (h : u.initialized = true) : u.reset.fs.pool = [] := by
  obtain ⟨hvalid, hraw, -⟩ := hi.opened h
  have hfd : u.file.fileDescriptor.isValid = true := (Bool.and_eq_true_iff.mp hvalid).1
  show u.closeFile.fs.pool = []
  simp only [closeFile, File.close, hvalid, if_true]
  show (u.fs.closeFile u.file.fileDescriptor).pool = []
  simp only [SingleBufferRamFileSystem.closeFile, hraw, hfd, and_self, if_true]

theorem reset_file_closed (u : FwUpload) : u.reset.file.isValid = false := by
  show (u.file.close u.fs).2.isValid = false
  unfold File.close
  split
  · rfl
  · rename_i hclosed
    exact Bool.eq_false_iff.mpr hclosed

theorem isSome_map (o : Option File) (f : File) : (o.map fun _ => f).isSome = o.isSome := by
  cases o <;> rfl

theorem underTransfer_setFile (u : FwUpload) (fs : SingleBufferRamFileSystem) (f : File) :
    (u.setFile fs f).UnderTransfer ↔ u.UnderTransfer := by
  unfold UnderTransfer setFile
  rw [isSome_map]

theorem underTransfer_reset (u : FwUpload) : u.reset.UnderTransfer ↔ u.UnderTransfer :=
  underTransfer_setFile u (u.file.close u.fs).1 (u.file.close u.fs).2

/-- Resetting keeps the invariant, and restores it where only the file was wrong. -/
theorem inv_reset (h : u.UnderTransfer → u.bufferedFileTransferInstance = true ∧ u.mediumPriorityInstance = true) :
    Inv u.reset where
  opened := fun hinit => by cases hinit
  closed := fun _ => reset_file_closed u
  registered := fun ht => h ((underTransfer_reset u).mp ht)

/-! ## One step -/

theorem append_fs (h : u.file.fileSystem = true) (input : List UInt8) :
    (u.append input).fs = (u.fs.append u.file.fileDescriptor input).1 := by
  show (u.file.append u.fs input).1 = _
  unfold File.append
  rw [if_pos h]
  rfl

theorem inv_append (hi : Inv u) (hinit : u.initialized = true) (input : List UInt8) : Inv (u.append input) where
  opened := by
    intro _
    obtain ⟨hvalid, hraw, hpool⟩ := hi.opened hinit
    have hfs : u.file.fileSystem = true := (File.isValid_iff.mp hvalid).2
    have hafter := append_fs hfs input
    refine ⟨hvalid, ?_, ?_⟩
    · rw [hafter]
      exact hraw
    · rw [hafter]
      intro hnil
      have hlen := length_append u.fs u.file.fileDescriptor input
      rw [hnil] at hlen
      exact hpool (List.eq_nil_of_length_eq_zero hlen.symm)
  closed := by
    intro hnot
    have hinit' : (u.append input).initialized = u.initialized := rfl
    rw [hinit', hinit] at hnot
    cases hnot
  registered := fun ht => hi.registered ((underTransfer_setFile u _ _).mp ht)

/-- A chunk that finds no file and opens none. -/
theorem handleReceiving_refused (hinit : u.initialized = false) (hopen : ¬ CanOpen u.fs c.fileSize new)
    (input : List UInt8) : u.handleReceiving c input new =
      ({ u.setFile u.fs (File.new ⟨0⟩ c.fileName) with sErrorMessage := some "Unable to open file" }, .fail) := by
  have hclosed : (File.new ⟨0⟩ c.fileName).isValid = false := rfl
  have hclose : (u.setFile u.fs (File.new ⟨0⟩ c.fileName)).closeFile = u.setFile u.fs (File.new ⟨0⟩ c.fileName) := by
    rw [close_of_closed hclosed]
    simp only [setFile, fs, Option.map_map, Function.comp_def]
  simp only [handleReceiving, hinit, Bool.not_false, if_true, tryOpenFileWriteBinary_refused hopen, hclosed, hclose]

/-- A chunk that opens the file. -/
theorem handleReceiving_opened (hinit : u.initialized = false) (hopen : CanOpen u.fs c.fileSize new)
    (input : List UInt8) : u.handleReceiving c input new =
      ({ u.setFile { u.fs with memoryPool := new.pointer, pool := new.block c.fileSize }
          (File.new ⟨new.pointer⟩ c.fileName) with initialized := true }.append input, .ok) := by
  have hvalid : (File.new ⟨new.pointer⟩ c.fileName).isValid = true := File.isValid_iff.mpr ⟨hopen.2.2, rfl⟩
  simp only [handleReceiving, hinit, Bool.not_false, if_true, tryOpenFileWriteBinary_opened hopen, hvalid, Bool.not_true,
    Bool.false_eq_true, if_false]

theorem handleReceiving_appended (hinit : u.initialized = true) (input : List UInt8) :
    u.handleReceiving c input new = (u.append input, .ok) := by
  simp only [handleReceiving, hinit, Bool.not_true, Bool.false_eq_true, if_false]

theorem inv_handleReceiving (hi : Inv u) (input : List UInt8) : Inv (u.handleReceiving c input new).1 := by
  cases hinit : u.initialized with
  | true =>
    rw [handleReceiving_appended hinit]
    exact inv_append hi hinit input
  | false =>
    by_cases hopen : CanOpen u.fs c.fileSize new
    · rw [handleReceiving_opened hinit hopen]
      refine inv_append ⟨fun _ => ⟨File.isValid_iff.mpr ⟨hopen.2.2, rfl⟩, rfl, ?_⟩, ?_, ?_⟩ rfl input
      · intro hnil
        have hlen := new.length_block c.fileSize
        have hnil' : new.block c.fileSize = [] := hnil
        rw [hnil'] at hlen
        exact hopen.2.1 hlen.symm
      · intro hnot
        cases hnot
      · exact fun ht => hi.registered ((underTransfer_setFile u _ _).mp ht)
    · rw [handleReceiving_refused hinit hopen]
      refine ⟨?_, fun _ => rfl, fun ht => hi.registered ((underTransfer_setFile u _ _).mp ht)⟩
      intro hnot
      have hinit' : u.initialized = true := hnot
      rw [hinit] at hinit'
      cases hinit'

theorem inv_handleInputBytes (hi : Inv u) : Inv (u.handleInputBytesFileBuffering c new).1 := by
  unfold handleInputBytesFileBuffering
  split
  · exact ⟨hi.opened, hi.closed, hi.registered⟩
  · rename_i hbft
    split
    · exact ⟨hi.opened, hi.closed, hi.registered⟩
    · rename_i hwq
      have hregistered : u.bufferedFileTransferInstance = true ∧ u.mediumPriorityInstance = true := by
        simpa using And.intro hbft hwq
      split
      · exact inv_handleReceiving hi _
      · unfold handleFinished
        split
        · exact ⟨hi.opened, hi.closed, fun _ => hregistered⟩
        · exact inv_reset fun _ => hregistered

theorem inv_notify (hi : Inv u) : Inv u.notifyOnFileBufferingFinished := by
  unfold notifyOnFileBufferingFinished
  split
  · exact hi
  · rename_i hqueued
    have hregistered := hi.registered (Or.inl (Nat.pos_of_ne_zero hqueued))
    have hfs : (u.client.onFileBufferingFinished u.fs u.file).fs = u.fs := by
      unfold BftFtpClient.onFileBufferingFinished
      split <;> rfl
    dsimp only
    split
    · refine ⟨fun hinit => ?_, hi.closed, fun _ => hregistered⟩
      show u.file.isValid = true ∧ u.file.fileDescriptor.raw = (u.client.onFileBufferingFinished u.fs u.file).fs.memoryPool ∧
        (u.client.onFileBufferingFinished u.fs u.file).fs.pool ≠ []
      rw [hfs]
      exact hi.opened hinit
    · exact inv_reset fun _ => hregistered

theorem inv_setClient {client : BftFtpClient} (hi : Inv u) (h : u.client.Minds client) : Inv (u.setClient client) := by
  have hregistered : ({ u with client := client } : FwUpload).UnderTransfer →
      u.bufferedFileTransferInstance = true ∧ u.mediumPriorityInstance = true := by
    intro ht
    refine hi.registered (ht.imp_right fun hsome => ?_)
    rcases h.bftFile with heq | hnone
    · rw [← heq]
      exact hsome
    · rw [hnone] at hsome
      cases hsome
  unfold setClient
  dsimp only
  split
  · exact inv_reset hregistered
  · obtain ⟨cursor, hmoved⟩ := h.fs
    refine ⟨fun hinit => ?_, hi.closed, hregistered⟩
    show u.file.isValid = true ∧ u.file.fileDescriptor.raw = client.fs.memoryPool ∧ client.fs.pool ≠ []
    rw [hmoved]
    exact hi.opened hinit

theorem inv_step (u : FwUpload) (e : UploadEvent) (hi : Inv u) : Inv (u.step e) := by
  cases e with
  | handleInputBytes c new => exact inv_handleInputBytes hi
  | notifyOnFileBufferingFinished => exact inv_notify hi
  | message m => exact inv_setClient hi (u.client.step_minds (by intro _ _ h; cases h))
  | onHrTimer => exact inv_setClient hi (u.client.step_minds (by intro _ _ h; cases h))
  | onDelayedSend => exact inv_setClient hi (u.client.step_minds (by intro _ _ h; cases h))

theorem inv_init (bft workQueue : Bool) (sessionId : UInt32) (fileOffset : Int) (fileSize : Nat) :
    Inv (init bft workQueue sessionId fileOffset fileSize) where
  opened := by intro h; cases h
  closed := fun _ => rfl
  registered := by
    intro h
    rcases h with hqueued | hheld
    · cases hqueued
    · cases hheld

/-! ## An upload while a file is under transfer -/

theorem handleInputBytes_of_instances {u : FwUpload} {c : InputBytesIterationContext} {new : Allocation}
    (hbft : u.bufferedFileTransferInstance = true) (hwq : u.mediumPriorityInstance = true) :
    u.handleInputBytesFileBuffering c new = match c.receptionState with
      | .receiving input => u.handleReceiving c input new
      | .finished espErr => u.handleFinished espErr := by
  have hbft' : ¬ (!u.bufferedFileTransferInstance) = true := by rw [hbft]; decide
  have hwq' : ¬ (!u.mediumPriorityInstance) = true := by rw [hwq]; decide
  unfold handleInputBytesFileBuffering
  exact (if_neg hbft').trans (if_neg hwq')

theorem immutable_iff_spared (u : FwUpload) (e : UploadEvent) (hi : Inv u) : Immutable u e ↔ Spared u e := by
  cases e with
  | handleInputBytes c new =>
    refine imp_congr_right fun ht => ?_
    obtain ⟨hbft, hwq⟩ := hi.registered ht
    rw [handleInputBytes_of_instances hbft hwq]
    unfold Spares
    cases hstate : c.receptionState with
    | receiving input =>
      dsimp only
      constructor
      · intro h
        have hfail := h.2.2 input rfl
        cases hinit : u.initialized with
        | true => rw [handleReceiving_appended hinit] at hfail; cases hfail
        | false =>
          refine ⟨rfl, fun hopen => ?_⟩
          rw [handleReceiving_opened hinit hopen] at hfail
          cases hfail
      · intro h
        rcases h with ⟨hinit, hopen⟩
        rw [handleReceiving_refused hinit hopen]
        exact ⟨rfl, rfl, fun _ _ => rfl⟩
    | finished espErr =>
      cases espErr with
      | ok =>
        -- the end of the upload is reported
        refine iff_of_false ?_ not_false
        intro h
        rcases h with ⟨-, hqueued, -⟩
        exact absurd hqueued (Nat.succ_ne_self u.queued)
      | fail =>
        dsimp only [handleFinished]
        constructor
        · intro h
          cases hinit : u.initialized with
          | false => rfl
          | true =>
            -- the file under transfer is closed
            have hnil := reset_fs_of_opened hi hinit
            have hsame : u.reset.fs = u.fs := h.1
            rw [hsame] at hnil
            exact absurd hnil (hi.opened hinit).2.2
        · intro hinit
          exact ⟨reset_fs_of_closed (hi.closed hinit), rfl, fun _ h => by cases h⟩
  | notifyOnFileBufferingFinished => exact Iff.rfl
  | message m => exact Iff.rfl
  | onHrTimer => exact Iff.rfl
  | onDelayedSend => exact Iff.rfl

/-! ## The file -/

def pointers (u : FwUpload) : Nat := u.queued + u.client.requestRepeat.bftFile.toList.length

/-- The bytes of the file, and where they end. -/
def Kept (u u' : FwUpload) : Prop :=
  u'.fs.pool = u.fs.pool ∧ u'.fs.memoryPoolNextWritePosition = u.fs.memoryPoolNextWritePosition

theorem underTransfer_iff (u : FwUpload) : u.UnderTransfer ↔ 0 < u.pointers := by
  unfold UnderTransfer pointers
  cases u.client.requestRepeat.bftFile with
  | none => simp
  | some file => simp

theorem pointers_setFile (u : FwUpload) (fs : SingleBufferRamFileSystem) (f : File) :
    (u.setFile fs f).pointers = u.pointers := by
  unfold pointers setFile
  cases u.client.requestRepeat.bftFile <;> rfl

theorem pointers_reset (u : FwUpload) : u.reset.pointers = u.pointers :=
  pointers_setFile u (u.file.close u.fs).1 (u.file.close u.fs).2

theorem pointers_handleReceiving (u : FwUpload) (c : InputBytesIterationContext) (input : List UInt8) (new : Allocation) :
    (u.handleReceiving c input new).1.pointers = u.pointers := by
  cases hinit : u.initialized with
  | true =>
    rw [handleReceiving_appended hinit]
    exact pointers_setFile u _ _
  | false =>
    by_cases hopen : CanOpen u.fs c.fileSize new
    · rw [handleReceiving_opened hinit hopen]
      exact (pointers_setFile _ _ _).trans (pointers_setFile u _ _)
    · rw [handleReceiving_refused hinit hopen]
      exact pointers_setFile u _ _

/-- A spared upload reports no end while there is a pointer. -/
theorem pointers_handleInputBytes (h : Spared u (.handleInputBytes c new)) (ha : u.pointers ≤ 1) :
    (u.handleInputBytesFileBuffering c new).1.pointers ≤ 1 := by
  unfold handleInputBytesFileBuffering
  split
  · exact ha
  · split
    · exact ha
    · cases hstate : c.receptionState with
      | receiving input => exact Nat.le_trans (Nat.le_of_eq (pointers_handleReceiving u c input new)) ha
      | finished espErr =>
        cases espErr with
        | ok =>
          have hnone : u.pointers = 0 := by
            apply Nat.eq_zero_of_not_pos
            intro hpos
            have hspares := h ((underTransfer_iff u).mpr hpos)
            unfold Spares at hspares
            rw [hstate] at hspares
            exact hspares
          show u.queued + 1 + u.client.requestRepeat.bftFile.toList.length ≤ 1
          unfold pointers at hnone
          omega
        | fail => exact Nat.le_trans (Nat.le_of_eq (pointers_reset u)) ha

theorem notify_alone (ha : u.pointers ≤ 1) : u.notifyOnFileBufferingFinished.pointers ≤ 1 ∧
    (u.notifyOnFileBufferingFinished.UnderTransfer → Kept u u.notifyOnFileBufferingFinished) := by
  unfold notifyOnFileBufferingFinished
  split
  · exact ⟨ha, fun _ => ⟨rfl, rfl⟩⟩
  · rename_i hqueued
    unfold pointers at ha
    have hnone : u.client.requestRepeat.bftFile = none := by
      cases hfile : u.client.requestRepeat.bftFile with
      | none => rfl
      | some file =>
        rw [hfile] at ha
        simp only [Option.toList, List.length_singleton] at ha
        omega
    dsimp only
    split
    · rename_i hidle
      have hclient : u.client.onFileBufferingFinished u.fs u.file =
          ({ u.client with fs := u.fs }.handleCreatingSessionTransition u.file).resendSessionOpenRequest.startOnce := by
        unfold BftFtpClient.onFileBufferingFinished
        rw [hidle]
      rw [hclient]
      refine ⟨?_, fun _ => ⟨rfl, rfl⟩⟩
      show u.queued - 1 + 1 ≤ 1
      omega
    · rename_i hwork
      have hclient : u.client.onFileBufferingFinished u.fs u.file = u.client := by
        unfold BftFtpClient.onFileBufferingFinished
        cases hstate : u.client.requestRepeat.state with
        | idle => exact absurd hstate hwork
        | _ => rfl
      rw [hclient]
      have hzero : ({ u with queued := u.queued - 1, client := u.client } : FwUpload).reset.pointers = 0 := by
        rw [pointers_reset]
        show u.queued - 1 + u.client.requestRepeat.bftFile.toList.length = 0
        rw [hnone]
        simp only [Option.toList, List.length_nil]
        omega
      exact ⟨by omega, fun ht => absurd ((underTransfer_iff _).mp ht) (by omega)⟩

theorem setClient_alone {client : BftFtpClient} (h : u.client.Minds client) (ha : u.pointers ≤ 1) :
    (u.setClient client).pointers ≤ 1 ∧ ((u.setClient client).UnderTransfer → Kept u (u.setClient client)) := by
  have hle : client.requestRepeat.bftFile.toList.length ≤ u.client.requestRepeat.bftFile.toList.length := by
    rcases h.bftFile with heq | hnone
    · exact Nat.le_of_eq (by rw [heq])
    · rw [hnone]
      exact Nat.zero_le _
  unfold pointers at ha
  unfold setClient
  dsimp only
  split
  · rename_i hreleased
    obtain ⟨hheld, hnone⟩ := hreleased
    have hzero : ({ u with client := client } : FwUpload).reset.pointers = 0 := by
      rw [pointers_reset]
      show u.queued + client.requestRepeat.bftFile.toList.length = 0
      obtain ⟨file, hfile⟩ := Option.isSome_iff_exists.mp hheld
      rw [hfile] at ha
      rw [hnone]
      simp only [Option.toList, List.length_nil, List.length_singleton] at ha ⊢
      omega
    exact ⟨by omega, fun ht => absurd ((underTransfer_iff _).mp ht) (by omega)⟩
  · obtain ⟨cursor, hmoved⟩ := h.fs
    refine ⟨?_, fun _ => ?_⟩
    · show u.queued + client.requestRepeat.bftFile.toList.length ≤ 1
      omega
    · show client.fs.pool = u.client.fs.pool ∧ client.fs.memoryPoolNextWritePosition = u.client.fs.memoryPoolNextWritePosition
      rw [hmoved]
      exact ⟨rfl, rfl⟩

theorem step_alone {e : UploadEvent} (hi : Inv u) (ha : u.pointers ≤ 1) (h : Spared u e) :
    (u.step e).pointers ≤ 1 ∧ (u.UnderTransfer → (u.step e).UnderTransfer → Kept u (u.step e)) := by
  cases e with
  | handleInputBytes c new =>
    refine ⟨pointers_handleInputBytes h ha, fun ht _ => ?_⟩
    have hfs : (u.handleInputBytesFileBuffering c new).1.fs = u.fs := ((immutable_iff_spared u _ hi).mpr h ht).1
    show Kept u (u.handleInputBytesFileBuffering c new).1
    unfold Kept
    rw [hfs]
    exact ⟨rfl, rfl⟩
  | notifyOnFileBufferingFinished =>
    obtain ⟨hone, hkept⟩ := notify_alone ha
    exact ⟨hone, fun _ => hkept⟩
  | message m =>
    obtain ⟨hone, hkept⟩ := setClient_alone (u.client.step_minds (e := .message m) (by intro _ _ h; cases h)) ha
    exact ⟨hone, fun _ => hkept⟩
  | onHrTimer =>
    obtain ⟨hone, hkept⟩ := setClient_alone (u.client.step_minds (e := .onHrTimer) (by intro _ _ h; cases h)) ha
    exact ⟨hone, fun _ => hkept⟩
  | onDelayedSend =>
    obtain ⟨hone, hkept⟩ := setClient_alone (u.client.step_minds (e := .onDelayedSend) (by intro _ _ h; cases h)) ha
    exact ⟨hone, fun _ => hkept⟩

end

/-- From the report to the release the file's bytes are the same, in a run that spares it. -/
theorem kept_until_released (bft workQueue : Bool) (sessionId : UInt32) (fileOffset : Int) (fileSize : Nat)
    {es : List UploadEvent} (h : Along step Spared (init bft workQueue sessionId fileOffset fileSize) es) :
    Along step (fun u e => u.UnderTransfer → (u.step e).UnderTransfer → Kept u (u.step e))
      (init bft workQueue sessionId fileOffset fileSize) es :=
  along_of_along (I := fun u => Inv u ∧ u.pointers ≤ 1)
    (fun u e hi hs => ⟨inv_step u e hi.1, (step_alone hi.1 hi.2 hs).1⟩)
    (fun _ _ hi hs => (step_alone hi.1 hi.2 hs).2)
    ⟨inv_init bft workQueue sessionId fileOffset fileSize, Nat.zero_le 1⟩ h

/-! ## The page -/

/-- Files under transfer stay as they are exactly when no upload comes meanwhile, but for
    one that finds the context closed and the pool taken. -/
theorem immutable_iff (bft workQueue : Bool) (sessionId : UInt32) (fileOffset : Int) (fileSize : Nat)
    (es : List UploadEvent) :
    Along step Immutable (init bft workQueue sessionId fileOffset fileSize) es ↔
      Along step Spared (init bft workQueue sessionId fileOffset fileSize) es :=
  along_iff inv_step immutable_iff_spared (inv_init bft workQueue sessionId fileOffset fileSize)

/-- One byte of a file of two is uploaded and reported; the next upload's byte is stored
    behind it while the notification waits. -/
theorem the_second_upload_writes_into_the_first :
    ¬ Along step Immutable (init true true 0 0 0)
      [.handleInputBytes ⟨.receiving [1], [], 2⟩ ⟨4096, []⟩, .handleInputBytes ⟨.finished .ok, [], 2⟩ ⟨4096, []⟩,
        .handleInputBytes ⟨.receiving [9], [], 2⟩ ⟨4096, []⟩] := by
  intro h
  rcases h with ⟨-, -, h, -⟩
  exact absurd (h (Or.inl (by decide))).1 (by decide)

end Esp32Cam.Http.FwUpload
