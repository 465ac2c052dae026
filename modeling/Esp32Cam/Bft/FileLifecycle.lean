/-
  Esp32Cam.Bft.FileLifecycle — opening and closing on the two buffer file systems.

  A run is any sequence of operations on the RAM file system and on the flushing one above
  it, with any descriptors. `Lawful` is what is asked of a step: an open with a positive
  size succeeds with an empty file where none is open, one that fails changes nothing, and
  an operation with another descriptor than the open file's has no effect.

  `closeFile` frees the pool and keeps its address, so that the RAM file system never opens
  a second file (`a_closed_file_is_never_opened_again`), and frees the pool once more when
  it is closed again. Its `append` does not look at the descriptor. The flushing file system
  keeps the file that the one below has refused to open, and panics on a descriptor where
  it has no file. `lawful_iff_admissible` says for which steps none of this happens.
-/

import Esp32Cam.Lib.PartialRun
import Esp32Cam.Bft.FlushingAppend

namespace Esp32Cam.Bft

open Esp32Cam.Lib

/-! ## Operations -/

inductive Layer where
  | ram
  | flushing
  deriving DecidableEq, Repr

inductive FileOperation where
  | tryOpenFileWriteBinary (name : List UInt8) (fileSizeHint : Nat) (new : Allocation)
  | append (fd : FileDescriptor) (buffer : List UInt8)
  | seek (fd : FileDescriptor) (offset : Int) (origin : Position)
  | read (fd : FileDescriptor) (outBufferSize : Nat)
  | closeFile (fd : FileDescriptor)
  deriving DecidableEq, Repr

inductive Answer where
  | descriptor (fd : FileDescriptor)
  | count (n : Nat)
  | position (position : Int)
  | data (data : List UInt8)
  | closed
  deriving DecidableEq, Repr

/-- Both layers, and the pools that were freed, the last one first. -/
structure Storage (σ : Type) where
  session : Session σ
  deleted : List Nat

/-- What `closeFile` frees. -/
def SingleBufferRamFileSystem.deletes (ram : SingleBufferRamFileSystem) (fd : FileDescriptor) : List Nat :=
  if fd.raw = ram.memoryPool ∧ fd.isValid then [ram.memoryPool] else []

def FlushingBufferFileSystem.deletes (fs : FlushingBufferFileSystem) (fd : FileDescriptor) : List Nat :=
  match fs.bufferFile with
  | none => []
  | some f => if f.fileDescriptor = fd ∧ f.isValid then fs.bufferFileSystem.deletes fd else []

namespace Storage

variable {σ : Type}

def ram (s : Storage σ) : SingleBufferRamFileSystem := s.session.ram

def setRam (s : Storage σ) (ram : SingleBufferRamFileSystem) : Storage σ := { s with session := s.session.setRam ram }

def setFs (s : Storage σ) (fs : FlushingBufferFileSystem) : Storage σ := { s with session := { s.session with fs := fs } }

def performRam (s : Storage σ) : FileOperation → Storage σ × Answer
  | .tryOpenFileWriteBinary _ fileSizeHint new =>
    let r := s.ram.tryOpenFileWriteBinary fileSizeHint new
    (s.setRam r.1, .descriptor r.2)
  | .append fd buffer =>
    let r := s.ram.append fd buffer
    (s.setRam r.1, .count r.2)
  | .seek fd offset origin =>
    let r := s.ram.seek fd offset origin
    (s.setRam r.1, .position r.2)
  | .read fd outBufferSize =>
    let r := s.ram.read fd outBufferSize
    (s.setRam r.1, .data r.2)
  | .closeFile fd => ({ s.setRam (s.ram.closeFile fd) with deleted := s.ram.deletes fd ++ s.deleted }, .closed)

def performFlushing (subscriber : Subscriber σ) (s : Storage σ) : FileOperation → Except Stop (Storage σ × Answer)
  | .tryOpenFileWriteBinary name fileSizeHint new =>
    let r := s.session.fs.tryOpenFileWriteBinary name fileSizeHint new
    .ok (s.setFs r.1, .descriptor r.2)
  | .append fd buffer => (s.session.append subscriber fd buffer).map fun r => ({ s with session := r.1 }, .count r.2)
  | .seek fd offset origin => (s.session.fs.seek fd offset origin).map fun r => (s.setFs r.1, .position r.2)
  | .read fd outBufferSize => (s.session.fs.read fd outBufferSize).map fun r => (s.setFs r.1, .data r.2)
  | .closeFile fd =>
    .ok ({ s.setFs (s.session.fs.closeFile fd) with deleted := s.session.fs.deletes fd ++ s.deleted }, .closed)

def perform (subscriber : Subscriber σ) (s : Storage σ) : Layer → FileOperation → Except Stop (Storage σ × Answer)
  | .ram, op => .ok (s.performRam op)
  | .flushing, op => s.performFlushing subscriber op

def step (subscriber : Subscriber σ) (s : Storage σ) (e : Layer × FileOperation) : Option (Storage σ) :=
  (s.perform subscriber e.1 e.2).toOption.map Prod.fst

/-! ## What is asked of a step -/

/-- The file a layer has open: the RAM file system has a pool exactly then. -/
def openFile (s : Storage σ) : Layer → Option FileDescriptor
  | .ram => if s.ram.pool = [] then none else some ⟨s.ram.memoryPool⟩
  | .flushing => (s.session.fs.bufferFile.filter (·.isValid)).map (·.fileDescriptor)

/-- No file stands in the way of an open: neither in the layer nor below it. -/
def Vacant (s : Storage σ) (layer : Layer) : Prop := s.openFile layer = none ∧ s.openFile .ram = none

structure OpensEmpty (s : Storage σ) (layer : Layer) (fd : FileDescriptor) (size : Nat) : Prop where
  valid : fd.isValid = true
  openFile : s.openFile layer = some fd
  size : s.ram.memoryPoolSize = size
  next : s.ram.memoryPoolNextWritePosition = 0
  current : s.ram.memoryPoolCurrentPosition = 0

/-- The operation is for a file that the layer does not have open: it returns, and nothing has changed. -/
def Ineffective (subscriber : Subscriber σ) (s : Storage σ) (layer : Layer) (fd : FileDescriptor) (op : FileOperation) :
    Prop :=
  s.openFile layer ≠ some fd → ∃ answer, s.perform subscriber layer op = .ok (s, answer)

def Lawful (subscriber : Subscriber σ) (s : Storage σ) (e : Layer × FileOperation) : Prop :=
  match e with
  | (layer, .tryOpenFileWriteBinary name size new) =>
    ∃ s' fd, s.perform subscriber layer (.tryOpenFileWriteBinary name size new) = .ok (s', .descriptor fd) ∧
      (s.Vacant layer → size ≠ 0 → new.pointer ≠ 0 → s'.OpensEmpty layer fd size) ∧ (fd.isValid = false → s' = s)
  | (layer, .append fd buffer) => s.Ineffective subscriber layer fd (.append fd buffer)
  | (layer, .seek fd offset origin) => s.Ineffective subscriber layer fd (.seek fd offset origin)
  | (layer, .read fd outBufferSize) => s.Ineffective subscriber layer fd (.read fd outBufferSize)
  | (layer, .closeFile fd) => s.Ineffective subscriber layer fd (.closeFile fd)

/-- The steps that run into none of the defects. -/
def Admissible (s : Storage σ) : Layer × FileOperation → Prop
  -- a file was opened before, and is closed
  | (.ram, .tryOpenFileWriteBinary _ size new) =>
    ¬ (s.ram.pool = [] ∧ s.ram.memoryPool ≠ 0 ∧ size ≠ 0 ∧ new.pointer ≠ 0)
  -- another descriptor, while a file is open whose cursor or end moves
  | (.ram, .append fd buffer) => s.ram.pool = [] ∨ fd.raw = s.ram.memoryPool ∨
      s.ram.memoryPoolNextWritePosition = s.ram.memoryPoolCurrentPosition ∧
        (buffer = [] ∨ s.ram.memoryPoolSize ≤ s.ram.memoryPoolCurrentPosition)
  | (.ram, .seek _ _ _) => True
  | (.ram, .read _ _) => True
  -- closed for a second time
  | (.ram, .closeFile fd) => ¬ (s.ram.pool = [] ∧ fd.isValid ∧ fd.raw = s.ram.memoryPool)
  -- refused below
  | (.flushing, .tryOpenFileWriteBinary _ size new) => s.session.fs.bufferFile.isSome ∨ CanOpen s.ram size new
  -- a descriptor without a file
  | (.flushing, .append fd _) => ¬ (fd.isValid ∧ s.session.fs.bufferFile = none)
  | (.flushing, .seek fd _ _) => ¬ (fd.isValid ∧ s.session.fs.bufferFile = none)
  | (.flushing, .read fd _) => ¬ (fd.isValid ∧ s.session.fs.bufferFile = none)
  | (.flushing, .closeFile _) => True

/-! ## What the steps keep -/

/-- A pool is behind its address, the positions of a closed file are reset, and the file of the flushing
    file system is one that the RAM file system has opened. -/
structure Kept (s : Session σ) : Prop where
  null : s.ram.memoryPool = 0 → s.ram.pool = []
  next : s.ram.pool = [] → s.ram.memoryPoolNextWritePosition = 0
  current : s.ram.pool = [] → s.ram.memoryPoolCurrentPosition = 0
  valid : ∀ f, s.fs.bufferFile = some f → f.isValid = true
  descriptor : ∀ f, s.fs.bufferFile = some f → f.fileDescriptor.raw = s.ram.memoryPool

section
variable {σ : Type} {subscriber : Subscriber σ} {s : Storage σ} {t t' : Session σ} {f : File} {ram : SingleBufferRamFileSystem}

theorem Kept.fileSystem (h : Kept t) (hf : t.fs.bufferFile = some f) : f.fileSystem = true :=
  (File.isValid_iff.mp (h.valid f hf)).2

theorem Kept.memoryPool_ne (h : Kept t) (hf : t.fs.bufferFile = some f) : t.ram.memoryPool ≠ 0 := by
  rw [← h.descriptor f hf]
  exact (File.isValid_iff.mp (h.valid f hf)).1

/-- The pool stays where it is, and the positions of a closed file stay reset. -/
theorem Kept.setRam (h : Kept t) (hpool : ram.memoryPool = t.ram.memoryPool) (hlength : ram.pool.length = t.ram.pool.length)
    (hnext : t.ram.pool = [] → ram.memoryPoolNextWritePosition = 0)
    (hcurrent : t.ram.pool = [] → ram.memoryPoolCurrentPosition = 0) : Kept (t.setRam ram) := by
  have hnil : ram.pool = [] → t.ram.pool = [] := by
    intro hnil
    rw [hnil] at hlength
    exact List.eq_nil_of_length_eq_zero hlength.symm
  refine ⟨fun hzero => ?_, fun hn => hnext (hnil hn), fun hn => hcurrent (hnil hn), h.valid, fun f hf => ?_⟩
  · have hold := h.null (hpool ▸ hzero)
    rw [hold] at hlength
    exact List.eq_nil_of_length_eq_zero hlength
  · exact (h.descriptor f hf).trans hpool.symm

theorem Kept.append (h : Kept t) (fd : FileDescriptor) (buffer : List UInt8) : Kept (t.setRam (t.ram.append fd buffer).1) := by
  have hnothing : t.ram.pool = [] →
      t.ram.memoryPoolCurrentPosition + min buffer.length (t.ram.memoryPoolSize - t.ram.memoryPoolCurrentPosition) = 0 := by
    intro hnil
    rw [h.current hnil, SingleBufferRamFileSystem.memoryPoolSize, hnil]
    simp
  exact h.setRam rfl (length_append t.ram fd buffer) hnothing hnothing

theorem Kept.seek (h : Kept t) (fd : FileDescriptor) (offset : Int) (origin : Position) :
    Kept (t.setRam (t.ram.seek fd offset origin).1) := by
  unfold SingleBufferRamFileSystem.seek
  split
  · exact h.setRam rfl rfl h.next h.current
  · refine h.setRam rfl rfl h.next fun hnil => ?_
    show uint32 (int32 (min _ (uint32 (int32 t.ram.memoryPoolNextWritePosition)) : Nat)) = 0
    rw [h.next hnil, uint32_int32]
    simp [uint32, int32]

theorem Kept.read (h : Kept t) (fd : FileDescriptor) (n : Nat) : Kept (t.setRam (t.ram.read fd n).1) := by
  unfold SingleBufferRamFileSystem.read
  split
  · exact h.setRam rfl rfl h.next h.current
  · refine h.setRam rfl rfl h.next fun hnil => ?_
    show t.ram.memoryPoolCurrentPosition + min n (t.ram.memoryPoolNextWritePosition - t.ram.memoryPoolCurrentPosition) = 0
    rw [h.next hnil, h.current hnil]
    simp

theorem Kept.closeFile (h : Kept t) (fd : FileDescriptor) : Kept (t.setRam (t.ram.closeFile fd)) := by
  unfold SingleBufferRamFileSystem.closeFile
  split
  · exact ⟨fun _ => rfl, fun _ => rfl, fun _ => rfl, h.valid, h.descriptor⟩
  · exact h

theorem Kept.flush (h : Kept t) (hf : t.fs.bufferFile = some f) (hmoves : subscriber.OnlyMoves) :
    Kept (t.flush subscriber f) := by
  have hset : Kept (t.setRam { t.ram with memoryPoolCurrentPosition := 0 }) := h.setRam rfl rfl h.next (fun _ => rfl)
  rw [← Session.flush_ram (h.fileSystem hf) (h.descriptor f hf) hmoves] at hset
  exact ⟨hset.null, hset.next, hset.current, hset.valid, hset.descriptor⟩

theorem Kept.appendLoop {buffer : List UInt8} {fuel position n : Nat} (h : Kept t) (hf : t.fs.bufferFile = some f)
    (hmoves : subscriber.OnlyMoves) (hrun : t.appendLoop subscriber f buffer fuel position = .ok (t', n)) : Kept t' := by
  induction fuel generalizing t position with
  | zero => cases hrun
  | succ fuel ih =>
    unfold Session.appendLoop at hrun
    by_cases hmore : position < buffer.length
    · rw [if_pos hmore] at hrun
      have happend : f.append t.ram (buffer.drop position) = t.ram.append f.fileDescriptor (buffer.drop position) := by
        simp [File.append, h.fileSystem hf, FileSystem.append]
      have hstored := h.append f.fileDescriptor (buffer.drop position)
      rw [← happend] at hstored
      generalize f.append t.ram (buffer.drop position) = r at hrun hstored
      dsimp only at hrun
      split at hrun
      · exact ih (hstored.flush (f := f) hf hmoves) hf hrun
      · exact ih hstored hf hrun
    · rw [if_neg hmore] at hrun
      cases hrun
      exact h

theorem Kept.opened {file : Option File} {size : Nat} {new : Allocation} (hopens : CanOpen t.ram size new)
    (hvalid : ∀ f, file = some f → f.isValid = true) (hdescriptor : ∀ f, file = some f → f.fileDescriptor.raw = new.pointer) :
    Kept { t with fs := ⟨{ t.ram with memoryPool := new.pointer, pool := new.block size }, file⟩ } := by
  obtain ⟨hpool, hsize, hnew⟩ := hopens
  have hblock : new.block size ≠ [] := by
    intro hnil
    have hlength := new.length_block size
    rw [hnil] at hlength
    exact hsize hlength.symm
  exact ⟨fun hzero => absurd hzero hnew, fun hnil => absurd hnil hblock, fun hnil => absurd hnil hblock, hvalid, hdescriptor⟩

theorem kept_performRam (h : Kept s.session) (op : FileOperation) : Kept (s.performRam op).1.session := by
  cases op with
  | tryOpenFileWriteBinary name size new =>
    show Kept (s.session.setRam (s.ram.tryOpenFileWriteBinary size new).1)
    by_cases hopens : CanOpen s.ram size new
    · rw [SingleBufferRamFileSystem.tryOpen_opened hopens]
      -- the file of the flushing file system would have its pool there
      have hnone : ∀ f, s.session.fs.bufferFile ≠ some f := fun f hf => h.memoryPool_ne hf hopens.1
      exact .opened hopens (fun f hf => absurd hf (hnone f)) (fun f hf => absurd hf (hnone f))
    · rw [SingleBufferRamFileSystem.tryOpen_refused hopens]
      exact h
  | append fd buffer => exact h.append fd buffer
  | seek fd offset origin => exact h.seek fd offset origin
  | read fd n => exact h.read fd n
  | closeFile fd => exact h.closeFile fd

theorem kept_performFlushing {s' : Storage σ} {answer : Answer} (hmoves : subscriber.OnlyMoves) (h : Kept s.session)
    (op : FileOperation) (ha : s.Admissible (.flushing, op)) (hrun : s.performFlushing subscriber op = .ok (s', answer)) :
    Kept s'.session := by
  cases op with
  | tryOpenFileWriteBinary name size new =>
    cases hrun
    show Kept { s.session with fs := (s.session.fs.tryOpenFileWriteBinary name size new).1 }
    unfold FlushingBufferFileSystem.tryOpenFileWriteBinary
    by_cases hopen : s.session.fs.bufferFile.isSome = true
    · rw [if_pos hopen]
      exact h
    · have hopens : CanOpen s.session.ram size new := ha.resolve_left hopen
      have hram := SingleBufferRamFileSystem.tryOpen_opened hopens
      change s.session.fs.bufferFileSystem.tryOpenFileWriteBinary size new = _ at hram
      rw [if_neg hopen, hram]
      refine Kept.opened hopens (fun f hf => ?_) (fun f hf => ?_)
      · obtain rfl := Option.some_inj.mp hf
        exact File.isValid_iff.mpr ⟨hopens.2.2, rfl⟩
      · obtain rfl := Option.some_inj.mp hf
        rfl
  | append fd buffer =>
    obtain ⟨r, hr, heq⟩ := ok_of_map_eq_ok hrun
    cases heq
    rcases s.session.fs.tryAssert_cases fd with ⟨f, hf, -, -, hassert⟩ | ⟨-, -, hassert⟩ | ⟨-, -, hassert⟩
    · simp only [Session.append, hassert] at hr
      exact h.appendLoop hf hmoves hr
    · simp only [Session.append, hassert, Except.ok.injEq] at hr
      exact hr ▸ h
    · simp only [Session.append, hassert, reduceCtorEq] at hr
  | seek fd offset origin =>
    obtain ⟨r, hr, heq⟩ := ok_of_map_eq_ok hrun
    cases heq
    obtain ⟨file, hassert, rfl⟩ := ok_of_map_eq_ok hr
    cases file with
    | none => exact h
    | some f =>
      have hf := s.session.fs.bufferFile_of_assert hassert
      show Kept (s.session.setRam (f.seek s.session.ram offset origin).1)
      simp only [File.seek, h.fileSystem hf, if_true, FileSystem.seek]
      exact h.seek f.fileDescriptor offset origin
  | read fd n =>
    obtain ⟨r, hr, heq⟩ := ok_of_map_eq_ok hrun
    cases heq
    obtain ⟨file, hassert, rfl⟩ := ok_of_map_eq_ok hr
    cases file with
    | none => exact h
    | some f =>
      have hf := s.session.fs.bufferFile_of_assert hassert
      show Kept (s.session.setRam (f.read s.session.ram n).1)
      simp only [File.read, h.fileSystem hf, if_true, FileSystem.read]
      exact h.read f.fileDescriptor n
  | closeFile fd =>
    cases hrun
    show Kept { s.session with fs := s.session.fs.closeFile fd }
    unfold FlushingBufferFileSystem.closeFile
    cases hf : s.session.fs.bufferFile with
    | none => exact h
    | some f =>
      dsimp only
      split
      · have hclosed := h.closeFile f.fileDescriptor
        have hclose : (f.close s.session.fs.bufferFileSystem).1 = s.session.ram.closeFile f.fileDescriptor := by
          simp [File.close, h.valid f hf, Session.ram]
        rw [hclose]
        exact ⟨hclosed.null, hclosed.next, hclosed.current, fun f hf => (by cases hf), fun f hf => (by cases hf)⟩
      · exact h

/-! ## Which steps are lawful -/

theorem append_eq_self_iff {ram : SingleBufferRamFileSystem} {fd : FileDescriptor} {buffer : List UInt8} :
    (ram.append fd buffer).1 = ram ↔ ram.memoryPoolNextWritePosition = ram.memoryPoolCurrentPosition ∧
      (buffer = [] ∨ ram.memoryPoolSize ≤ ram.memoryPoolCurrentPosition) := by
  constructor
  · intro heq
    have hcurrent := congrArg SingleBufferRamFileSystem.memoryPoolCurrentPosition heq
    have hnext := congrArg SingleBufferRamFileSystem.memoryPoolNextWritePosition heq
    simp only [SingleBufferRamFileSystem.append] at hcurrent hnext
    rw [← List.length_eq_zero_iff]
    omega
  · intro h
    rcases h with ⟨hnext, hnothing⟩
    have hzero : min buffer.length (ram.memoryPoolSize - ram.memoryPoolCurrentPosition) = 0 := by
      rw [← List.length_eq_zero_iff] at hnothing
      omega
    obtain ⟨pointer, pool, next, current⟩ := ram
    dsimp only at hnext
    subst hnext
    simp only [SingleBufferRamFileSystem.append, hzero, splice, List.take_zero, List.append_nil, List.length_nil,
      Nat.add_zero, List.take_append_drop]

theorem openFile_ram (s : Storage σ) : s.openFile .ram = if s.ram.pool = [] then none else some ⟨s.ram.memoryPool⟩ := rfl

theorem setRam_self (s : Storage σ) : s.setRam s.ram = s := rfl

/-- An operation on the RAM file system always returns. -/
theorem ineffective_ram {fd : FileDescriptor} {op : FileOperation} :
    s.Ineffective subscriber .ram fd op ↔ (s.openFile .ram ≠ some fd → (s.performRam op).1 = s) := by
  refine imp_congr_right fun _ => ⟨?_, fun heq => ⟨(s.performRam op).2, ?_⟩⟩
  · intro h
    rcases h with ⟨answer, hrun⟩
    exact congrArg Prod.fst (Except.ok.inj hrun)
  · exact congrArg Except.ok (Prod.ext heq rfl)

theorem lawful_ram_open (h : Kept s.session) (name : List UInt8) (size : Nat) (new : Allocation) :
    s.Lawful subscriber (.ram, .tryOpenFileWriteBinary name size new) ↔
      s.Admissible (.ram, .tryOpenFileWriteBinary name size new) := by
  show (∃ s' fd, Except.ok (s.setRam (s.ram.tryOpenFileWriteBinary size new).1,
      Answer.descriptor (s.ram.tryOpenFileWriteBinary size new).2) = Except.ok (s', Answer.descriptor fd) ∧ _) ↔ ¬ _
  by_cases hopens : CanOpen s.ram size new
  · rw [SingleBufferRamFileSystem.tryOpen_opened hopens]
    obtain ⟨hpool, hsize, hnew⟩ := hopens
    have hvalid : (⟨new.pointer⟩ : FileDescriptor).isValid = true := by simpa [FileDescriptor.isValid] using hnew
    have hblock : new.block size ≠ [] := by
      intro hnil
      have hlength := new.length_block size
      rw [hnil] at hlength
      exact hsize hlength.symm
    refine iff_of_true ⟨_, _, rfl, fun hvacant _ _ => ?_, fun hinvalid => ?_⟩ fun hclosed => hclosed.2.1 hpool
    · refine ⟨hvalid, if_neg hblock, new.length_block size, ?_, ?_⟩
      · exact h.next (h.null hpool)
      · exact h.current (h.null hpool)
    · rw [hvalid] at hinvalid
      cases hinvalid
  · rw [SingleBufferRamFileSystem.tryOpen_refused hopens]
    constructor
    · intro h h'
      rcases h with ⟨s', fd, hrun, hsucceeds, -⟩
      rcases h' with ⟨hnil, -, hsize, hnew⟩
      cases hrun
      have hvacant : s.openFile .ram = none := if_pos hnil
      exact absurd (hsucceeds ⟨hvacant, hvacant⟩ hsize hnew).valid Bool.false_ne_true
    · intro hnot
      refine ⟨s, ⟨0⟩, rfl, fun hvacant hsize hnew => ?_, fun _ => rfl⟩
      have hnil : s.ram.pool = [] := by
        by_contra hne
        have hopen := hvacant.2
        rw [openFile_ram, if_neg hne] at hopen
        cases hopen
      exact absurd ⟨hnil, fun hzero => hopens ⟨hzero, hsize, hnew⟩, hsize, hnew⟩ hnot

theorem lawful_ram_append (h : Kept s.session) (fd : FileDescriptor) (buffer : List UInt8) :
    s.Lawful subscriber (.ram, .append fd buffer) ↔ s.Admissible (.ram, .append fd buffer) := by
  show s.Ineffective subscriber .ram fd (.append fd buffer) ↔ _ ∨ _ ∨ _
  rw [ineffective_ram, openFile_ram]
  have hsame : (s.performRam (.append fd buffer)).1 = s ↔ (s.ram.append fd buffer).1 = s.ram := by
    constructor
    · exact fun heq => congrArg Storage.ram heq
    · intro heq
      show s.setRam (s.ram.append fd buffer).1 = s
      rw [heq, setRam_self]
  rw [hsame, append_eq_self_iff]
  by_cases hnil : s.ram.pool = []
  · refine iff_of_true (fun _ => ⟨?_, Or.inr ?_⟩) (Or.inl hnil)
    · exact (h.next hnil).trans (h.current hnil).symm
    · rw [SingleBufferRamFileSystem.memoryPoolSize, hnil]
      exact Nat.zero_le _
  · rw [if_neg hnil]
    by_cases hfd : fd.raw = s.ram.memoryPool
    · refine iff_of_true (fun hother => absurd ?_ hother) (Or.inr (Or.inl hfd))
      rw [← hfd]
    · have hother : some (⟨s.ram.memoryPool⟩ : FileDescriptor) ≠ some fd := by
        intro heq
        rw [← Option.some_inj.mp heq] at hfd
        exact hfd rfl
      simp only [hother, hnil, hfd, ne_eq, not_false_eq_true, true_imp_iff, false_or]

/-- Of a file that is not open a descriptor is at most what is left of its address. -/
theorem closed_of_other {fd : FileDescriptor} (hother : s.openFile .ram ≠ some fd) (hfd : fd.raw = s.ram.memoryPool) :
    s.ram.pool = [] := by
  by_contra hne
  rw [openFile_ram, if_neg hne, ← hfd] at hother
  exact hother rfl

theorem lawful_ram_seek (h : Kept s.session) (fd : FileDescriptor) (offset : Int) (origin : Position) :
    s.Lawful subscriber (.ram, .seek fd offset origin) := by
  show s.Ineffective subscriber .ram fd (.seek fd offset origin)
  rw [ineffective_ram]
  intro hother
  show s.setRam (s.ram.seek fd offset origin).1 = s
  unfold SingleBufferRamFileSystem.seek
  by_cases hfd : fd.raw = s.ram.memoryPool
  · have hnil := closed_of_other hother hfd
    have hnext : s.ram.memoryPoolNextWritePosition = 0 := h.next hnil
    have hcurrent : s.ram.memoryPoolCurrentPosition = 0 := h.current hnil
    rw [if_neg (fun hne => hne hfd)]
    refine (congrArg s.setRam ?_).trans s.setRam_self
    generalize s.ram = ram at *
    obtain ⟨pointer, pool, next, current⟩ := ram
    dsimp only at hnext hcurrent
    subst hnext hcurrent
    simp [uint32, int32]
  · rw [if_pos hfd]
    exact s.setRam_self

theorem lawful_ram_read (h : Kept s.session) (fd : FileDescriptor) (n : Nat) :
    s.Lawful subscriber (.ram, .read fd n) := by
  show s.Ineffective subscriber .ram fd (.read fd n)
  rw [ineffective_ram]
  intro hother
  show s.setRam (s.ram.read fd n).1 = s
  unfold SingleBufferRamFileSystem.read
  by_cases hfd : fd.raw = s.ram.memoryPool
  · have hnil := closed_of_other hother hfd
    have hnext : s.ram.memoryPoolNextWritePosition = 0 := h.next hnil
    rw [if_neg (fun hne => hne hfd)]
    refine (congrArg s.setRam ?_).trans s.setRam_self
    dsimp only
    rw [hnext, Nat.zero_sub, Nat.min_zero, Nat.add_zero, ← hnext]
  · rw [if_pos hfd]
    exact s.setRam_self

theorem lawful_ram_closeFile (fd : FileDescriptor) :
    s.Lawful subscriber (.ram, .closeFile fd) ↔ s.Admissible (.ram, .closeFile fd) := by
  show s.Ineffective subscriber .ram fd (.closeFile fd) ↔ ¬ _
  rw [ineffective_ram]
  by_cases hfd : fd.raw = s.ram.memoryPool ∧ fd.isValid = true
  · have hdeletes : s.ram.deletes fd = [s.ram.memoryPool] := if_pos hfd
    have hchanged : (s.performRam (.closeFile fd)).1 ≠ s := by
      intro heq
      have hdeleted := congrArg (fun t : Storage σ => t.deleted.length) heq
      change (s.ram.deletes fd ++ s.deleted).length = s.deleted.length at hdeleted
      rw [hdeletes, List.length_append, List.length_singleton] at hdeleted
      omega
    constructor
    · intro hsame h
      rcases h with ⟨hnil, -, -⟩
      refine hchanged (hsame fun hopen => ?_)
      rw [openFile_ram, if_pos hnil] at hopen
      cases hopen
    · exact fun hnot hother => absurd ⟨closed_of_other hother hfd.1, hfd.2, hfd.1⟩ hnot
  · refine iff_of_true (fun _ => ?_) fun hclosed => hfd ⟨hclosed.2.2, hclosed.2.1⟩
    have hdeletes : s.ram.deletes fd = [] := if_neg hfd
    have hclose : s.ram.closeFile fd = s.ram := if_neg hfd
    show ({ s.setRam (s.ram.closeFile fd) with deleted := s.ram.deletes fd ++ s.deleted } : Storage σ) = s
    rw [hdeletes, hclose]
    rfl

theorem openFile_flushing (h : Kept s.session) :
    s.openFile .flushing = s.session.fs.bufferFile.map (·.fileDescriptor) := by
  show (s.session.fs.bufferFile.filter (·.isValid)).map _ = _
  cases hf : s.session.fs.bufferFile with
  | none => rfl
  | some f => rw [Option.filter_some, if_pos (h.valid f hf)]

theorem lawful_flushing_open (h : Kept s.session) (name : List UInt8) (size : Nat) (new : Allocation) :
    s.Lawful subscriber (.flushing, .tryOpenFileWriteBinary name size new) ↔
      s.Admissible (.flushing, .tryOpenFileWriteBinary name size new) := by
  show (∃ s' fd, Except.ok (s.setFs (s.session.fs.tryOpenFileWriteBinary name size new).1,
      Answer.descriptor (s.session.fs.tryOpenFileWriteBinary name size new).2) =
        Except.ok (s', Answer.descriptor fd) ∧ _) ↔ _ ∨ _
  cases hf : s.session.fs.bufferFile with
  | some f =>
    have hopen : s.session.fs.tryOpenFileWriteBinary name size new = (s.session.fs, ⟨0⟩) := if_pos (by rw [hf]; rfl)
    rw [hopen]
    refine iff_of_true ⟨s, ⟨0⟩, rfl, fun hvacant => ?_, fun _ => rfl⟩ (Or.inl rfl)
    have hnone := hvacant.1
    rw [openFile_flushing h, hf] at hnone
    cases hnone
  | none =>
    have hopen : s.session.fs.tryOpenFileWriteBinary name size new = _ := if_neg (by rw [hf]; exact Bool.false_ne_true)
    have hnot : ¬ (none : Option File).isSome = true := Bool.false_ne_true
    rw [hopen, or_iff_right hnot]
    by_cases hopens : CanOpen s.ram size new
    · have hram : s.session.fs.bufferFileSystem.tryOpenFileWriteBinary size new = _ :=
        SingleBufferRamFileSystem.tryOpen_opened hopens
      obtain ⟨hpool, hsize, hnew⟩ := hopens
      have hvalid : (⟨new.pointer⟩ : FileDescriptor).isValid = true := by simpa [FileDescriptor.isValid] using hnew
      rw [hram]
      dsimp only
      rw [if_pos hvalid]
      refine iff_of_true ⟨_, _, rfl, fun _ _ _ => ⟨hvalid, ?_, new.length_block size, ?_, ?_⟩, fun hinvalid => ?_⟩
        ⟨hpool, hsize, hnew⟩
      · show ((some (File.new ⟨new.pointer⟩ name)).filter (·.isValid)).map (·.fileDescriptor) = _
        rw [Option.filter_some, if_pos (File.isValid_iff.mpr ⟨hnew, rfl⟩)]
        rfl
      · exact h.next (h.null hpool)
      · exact h.current (h.null hpool)
      · rw [hvalid] at hinvalid
        cases hinvalid
    · have hram : s.session.fs.bufferFileSystem.tryOpenFileWriteBinary size new = _ :=
        SingleBufferRamFileSystem.tryOpen_refused hopens
      rw [hram]
      refine iff_of_false ?_ hopens
      intro h
      rcases h with ⟨s', fd, hrun, -, hfails⟩
      cases hrun
      have hsame := congrArg (fun t : Storage σ => t.session.fs.bufferFile) (hfails rfl)
      change some (File.new ⟨0⟩ name) = s.session.fs.bufferFile at hsame
      rw [hf] at hsame
      cases hsame

/-- An operation of the flushing file system that asks for the file first. -/
theorem lawful_flushing_of_assert (h : Kept s.session) {fd : FileDescriptor} {op : FileOperation}
    (hother : s.session.fs.tryAssertFileOperationValid fd = .ok none →
      ∃ answer, s.performFlushing subscriber op = .ok (s, answer))
    (hpanics : s.session.fs.tryAssertFileOperationValid fd = .error .panicked →
      s.performFlushing subscriber op = .error .panicked) :
    s.Ineffective subscriber .flushing fd op ↔ ¬ (fd.isValid = true ∧ s.session.fs.bufferFile = none) := by
  unfold Ineffective
  rw [openFile_flushing h]
  rcases s.session.fs.tryAssert_cases fd with ⟨f, hf, hfd, -, -⟩ | ⟨-, hfile, hassert⟩ | ⟨hnone, hvalid, hassert⟩
  · rw [hf]
    exact iff_of_true (fun hne => absurd (congrArg some hfd.symm) hne) fun hnone => (by cases hnone.2)
  · exact iff_of_true (fun _ => hother hassert) fun hnone => hfile hnone.1 hnone.2
  · refine iff_of_false (fun hineffective => ?_) fun hnot => hnot ⟨hvalid, hnone⟩
    obtain ⟨answer, hrun⟩ := hineffective (by rw [hnone]; exact fun heq => (by cases heq))
    change s.performFlushing subscriber op = _ at hrun
    rw [hpanics hassert] at hrun
    cases hrun

theorem lawful_flushing_append (h : Kept s.session) (fd : FileDescriptor) (buffer : List UInt8) :
    s.Lawful subscriber (.flushing, .append fd buffer) ↔ s.Admissible (.flushing, .append fd buffer) := by
  refine lawful_flushing_of_assert h (fun hassert => ⟨.count 0, ?_⟩) fun hassert => ?_
  · simp only [performFlushing, Session.append, hassert]
    rfl
  · simp only [performFlushing, Session.append, hassert]
    rfl

theorem lawful_flushing_seek (h : Kept s.session) (fd : FileDescriptor) (offset : Int) (origin : Position) :
    s.Lawful subscriber (.flushing, .seek fd offset origin) ↔ s.Admissible (.flushing, .seek fd offset origin) := by
  refine lawful_flushing_of_assert h (fun hassert => ⟨.position positionError, ?_⟩) fun hassert => ?_
  · simp only [performFlushing, FlushingBufferFileSystem.seek, hassert]
    rfl
  · simp only [performFlushing, FlushingBufferFileSystem.seek, hassert]
    rfl

theorem lawful_flushing_read (h : Kept s.session) (fd : FileDescriptor) (n : Nat) :
    s.Lawful subscriber (.flushing, .read fd n) ↔ s.Admissible (.flushing, .read fd n) := by
  refine lawful_flushing_of_assert h (fun hassert => ⟨.data [], ?_⟩) fun hassert => ?_
  · simp only [performFlushing, FlushingBufferFileSystem.read, hassert]
    rfl
  · simp only [performFlushing, FlushingBufferFileSystem.read, hassert]
    rfl

theorem lawful_flushing_closeFile (h : Kept s.session) (fd : FileDescriptor) :
    s.Lawful subscriber (.flushing, .closeFile fd) := by
  show s.Ineffective subscriber .flushing fd (.closeFile fd)
  unfold Ineffective
  rw [openFile_flushing h]
  intro hother
  refine ⟨.closed, congrArg Except.ok (Prod.ext ?_ rfl)⟩
  have hsame : s.session.fs.closeFile fd = s.session.fs ∧ s.session.fs.deletes fd = [] := by
    unfold FlushingBufferFileSystem.closeFile FlushingBufferFileSystem.deletes
    cases hf : s.session.fs.bufferFile with
    | none => exact ⟨rfl, rfl⟩
    | some f =>
      have hne : f.fileDescriptor ≠ fd := by
        rw [hf] at hother
        exact fun heq => hother (congrArg some heq)
      exact ⟨if_neg hne, if_neg fun hand => hne hand.1⟩
  show ({ s.setFs (s.session.fs.closeFile fd) with deleted := s.session.fs.deletes fd ++ s.deleted } : Storage σ) = s
  rw [hsame.1, hsame.2]
  rfl

/-- A step is lawful exactly when it runs into none of the defects. -/
theorem lawful_iff_admissible (h : Kept s.session) (e : Layer × FileOperation) :
    s.Lawful subscriber e ↔ s.Admissible e := by
  obtain ⟨layer, op⟩ := e
  cases layer with
  | ram =>
    cases op with
    | tryOpenFileWriteBinary name size new => exact lawful_ram_open h name size new
    | append fd buffer => exact lawful_ram_append h fd buffer
    | seek fd offset origin => exact iff_of_true (lawful_ram_seek h fd offset origin) trivial
    | read fd n => exact iff_of_true (lawful_ram_read h fd n) trivial
    | closeFile fd => exact lawful_ram_closeFile fd
  | flushing =>
    cases op with
    | tryOpenFileWriteBinary name size new => exact lawful_flushing_open h name size new
    | append fd buffer => exact lawful_flushing_append h fd buffer
    | seek fd offset origin => exact lawful_flushing_seek h fd offset origin
    | read fd n => exact lawful_flushing_read h fd n
    | closeFile fd => exact iff_of_true (lawful_flushing_closeFile h fd) trivial

theorem kept_step {s' : Storage σ} (hmoves : subscriber.OnlyMoves) {e : Layer × FileOperation}
    (hrun : s.step subscriber e = some s') (h : Kept s.session) (ha : s.Admissible e) : Kept s'.session := by
  obtain ⟨layer, op⟩ := e
  obtain ⟨r, hr, rfl⟩ := Option.map_eq_some_iff.mp hrun
  cases layer with
  | ram =>
    cases hr
    exact kept_performRam h op
  | flushing =>
    change (s.performFlushing subscriber op).toOption = some r at hr
    cases hperform : s.performFlushing subscriber op with
    | error e =>
      rw [hperform] at hr
      cases hr
    | ok r' =>
      rw [hperform] at hr
      cases hr
      exact kept_performFlushing hmoves h op ha hperform

end

def start {σ : Type} (subscribers : σ) : Storage σ := ⟨⟨.init .init, subscribers, []⟩, []⟩

theorem kept_start {σ : Type} (subscribers : σ) : Kept (start subscribers).session :=
  ⟨fun _ => rfl, fun _ => rfl, fun _ => rfl, fun f hf => (by cases hf), fun f hf => (by cases hf)⟩

/-- **Lifecycle.** In a run on the two file systems every open and every stray descriptor is dealt with as
    it should be exactly when no step of the run meets one of the defects. -/
theorem lifecycle_iff {σ : Type} (subscriber : Subscriber σ) (hmoves : subscriber.OnlyMoves) (subscribers : σ)
    (es : List (Layer × FileOperation)) :
    PartialRun.Allowed (step subscriber) (Lawful subscriber) (start subscribers) es ↔
      PartialRun.Allowed (step subscriber) Admissible (start subscribers) es :=
  PartialRun.allowed_iff_allowed (I := fun s => Kept s.session) (fun _ _ _ hrun h ha => kept_step hmoves hrun h ha)
    (fun _ e h => lawful_iff_admissible h e) (kept_start subscribers)

/-- A file is opened, written with a stray descriptor and its own, and closed. -/
theorem lifecycle_of_one_file : PartialRun.Allowed (step Session.reader) (Lawful Session.reader) (start [])
    [(.flushing, .tryOpenFileWriteBinary [0x61] 4 ⟨1, []⟩), (.flushing, .append ⟨9⟩ [1]), (.flushing, .append ⟨1⟩ [1, 2]),
      (.flushing, .closeFile ⟨1⟩)] := by
  rw [lifecycle_iff Session.reader Session.reader_onlyMoves]
  refine ⟨Or.inr (by decide), fun s hs => ?_⟩
  cases hs
  refine ⟨fun hnone => (by cases hnone.2), fun s hs => ?_⟩
  cases hs
  refine ⟨fun hnone => (by cases hnone.2), fun s hs => ?_⟩
  cases hs
  exact ⟨trivial, fun _ _ => trivial⟩

/-- The pool of the closed file stands in the way of the next one. -/
theorem a_closed_file_is_never_opened_again :
    ¬ PartialRun.Allowed (step Session.reader) (Lawful Session.reader) (start [])
      [(.ram, .tryOpenFileWriteBinary [0x61] 4 ⟨1, []⟩), (.ram, .closeFile ⟨1⟩),
        (.ram, .tryOpenFileWriteBinary [0x61] 4 ⟨2, []⟩)] := by
  intro h
  rcases h with ⟨-, hrest⟩
  obtain ⟨-, hrest⟩ := hrest _ rfl
  obtain ⟨⟨s', fd, hrun, hsucceeds, -⟩, -⟩ := hrest _ rfl
  cases hrun
  exact absurd (hsucceeds ⟨rfl, rfl⟩ (by decide) (by decide)).valid Bool.false_ne_true

end Storage

end Esp32Cam.Bft
