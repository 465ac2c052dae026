/-
  Esp32Cam.Bft.FileSystem — files, descriptors and the RAM file system.

  `SingleBufferRamFileSystem` keeps one file in one allocated pool. `seek` clamps the
  new position into the written part and answers the PREVIOUS position; `append`
  stores at the cursor and makes the new cursor the end of the data.

  What the rest of the development needs is one relation and four lemmas: `Holds fs f
  content cursor` says that `f` is the open file of `fs` with those bytes and that
  cursor, and `Holds.seek_start`, `Holds.getCurrentPosition`, `Holds.read` and
  `Holds.append` say what each operation answers and what it holds afterwards.
-/

import Esp32Cam.Lib.Word
import Esp32Cam.Lib.Memory
import Esp32Cam.Ut.Crc32

namespace Esp32Cam.Bft

open Esp32Cam.Lib Esp32Cam.Ut

/-! ## Files over a file system -/

/-- A descriptor: a pointer or a number, zero when invalid. -/
structure FileDescriptor where
  raw : Nat
  deriving DecidableEq, Repr

def FileDescriptor.isValid (fd : FileDescriptor) : Bool := fd.raw != 0

inductive Position where
  | start | current | «end»
  deriving DecidableEq, Repr

def positionError : Int := -4

class FileSystem (φ : Type) where
  append : φ → FileDescriptor → List UInt8 → φ × Nat
  seek : φ → FileDescriptor → Int → Position → φ × Int
  read : φ → FileDescriptor → Nat → φ × List UInt8

/-- A file: whether it has a file system, its descriptor there, the checksum of its name. -/
structure File where
  fileSystem : Bool
  fileDescriptor : FileDescriptor
  fileNameHash : UInt32
  deriving DecidableEq, Repr

def File.new (fd : FileDescriptor) (fileName : List UInt8) : File := ⟨true, fd, calculateCrc32 fileName⟩

section
variable {φ : Type} [FileSystem φ]

def File.append (fs : φ) (f : File) (buffer : List UInt8) : φ × Nat :=
  if f.fileSystem then FileSystem.append fs f.fileDescriptor buffer else (fs, 0)

def File.seek (fs : φ) (f : File) (offset : Int) (origin : Position) : φ × Int :=
  if f.fileSystem then FileSystem.seek fs f.fileDescriptor offset origin else (fs, positionError)

def File.read (fs : φ) (f : File) (outBufferSize : Nat) : φ × List UInt8 :=
  if f.fileSystem then FileSystem.read fs f.fileDescriptor outBufferSize else (fs, [])

def File.getCurrentPosition (fs : φ) (f : File) : φ × Nat :=
  if f.fileSystem then
    let (fs, position) := FileSystem.seek fs f.fileDescriptor 0 .current
    (fs, uint32 position)
  else (fs, 0)

end

/-! ## The RAM file system -/

/-- `pool` are the bytes behind the pointer `memoryPool` (0 is `nullptr`), as many as `memoryPoolSize`. -/
structure SingleBufferRamFileSystem where
  memoryPool : Nat
  pool : List UInt8
  memoryPoolNextWritePosition : Nat
  memoryPoolCurrentPosition : Nat
  deriving DecidableEq, Repr

/-- What `new` answers: a pointer, 0 where there is no memory, and the bytes found behind it. -/
structure Allocation where
  pointer : Nat
  bytes : List UInt8 := []
  deriving DecidableEq, Repr

def Allocation.block (new : Allocation) (size : Nat) : List UInt8 := (new.bytes ++ List.replicate size 0).take size

@[simp] theorem Allocation.length_block (new : Allocation) (size : Nat) : (new.block size).length = size := by
  simp [Allocation.block]

namespace SingleBufferRamFileSystem

def init : SingleBufferRamFileSystem := ⟨0, [], 0, 0⟩

def memoryPoolSize (fs : SingleBufferRamFileSystem) : Nat := fs.pool.length

def tryOpenFileWriteBinary (fs : SingleBufferRamFileSystem) (fileSizeHint : Nat) (new : Allocation) :
    SingleBufferRamFileSystem × FileDescriptor :=
  -- only one file is supported
  if fs.memoryPool ≠ 0 then (fs, ⟨0⟩)
  else if fileSizeHint = 0 then (fs, ⟨0⟩)
  else if new.pointer = 0 then (fs, ⟨0⟩)
  else ({ fs with memoryPool := new.pointer, pool := new.block fileSizeHint }, ⟨new.pointer⟩)

/-- The pool is freed, and `memoryPool` keeps its address. -/
def closeFile (fs : SingleBufferRamFileSystem) (fd : FileDescriptor) : SingleBufferRamFileSystem :=
  if fd.raw = fs.memoryPool ∧ fd.isValid then
    { fs with pool := [], memoryPoolNextWritePosition := 0, memoryPoolCurrentPosition := 0 }
  else fs

def append (fs : SingleBufferRamFileSystem) (_ : FileDescriptor) (buffer : List UInt8) :
    SingleBufferRamFileSystem × Nat :=
  let bufferSize := min buffer.length (fs.memoryPoolSize - fs.memoryPoolCurrentPosition)
  let current := fs.memoryPoolCurrentPosition + bufferSize
  ({ fs with
      pool := splice fs.pool fs.memoryPoolCurrentPosition (buffer.take bufferSize)
      memoryPoolCurrentPosition := current
      memoryPoolNextWritePosition := current }, bufferSize)

def seek (fs : SingleBufferRamFileSystem) (fd : FileDescriptor) (offset : Int) (origin : Position) :
    SingleBufferRamFileSystem × Int :=
  if fd.raw ≠ fs.memoryPool then (fs, positionError)
  else
    let newPosition : Int := match origin with
      | .current => int32 fs.memoryPoolCurrentPosition
      | .end => int32 fs.memoryPoolNextWritePosition
      | .start => 0
    let newPosition := newPosition + offset
    -- the clamp compares unsigned words: a negative position is a large one
    let newPosition := min (uint32 newPosition) (uint32 (int32 fs.memoryPoolNextWritePosition))
    ({ fs with memoryPoolCurrentPosition := uint32 (int32 newPosition) }, int32 fs.memoryPoolCurrentPosition)

def read (fs : SingleBufferRamFileSystem) (fd : FileDescriptor) (outBufferSize : Nat) :
    SingleBufferRamFileSystem × List UInt8 :=
  if fd.raw ≠ fs.memoryPool then (fs, [])
  else
    let outBufferSize := min outBufferSize (fs.memoryPoolNextWritePosition - fs.memoryPoolCurrentPosition)
    ({ fs with memoryPoolCurrentPosition := fs.memoryPoolCurrentPosition + outBufferSize },
      (fs.pool.drop fs.memoryPoolCurrentPosition).take outBufferSize)

end SingleBufferRamFileSystem

instance : FileSystem SingleBufferRamFileSystem where
  append := SingleBufferRamFileSystem.append
  seek := SingleBufferRamFileSystem.seek
  read := SingleBufferRamFileSystem.read

/-! ## Opening and closing -/

def File.isValid (f : File) : Bool := f.fileDescriptor.isValid && f.fileSystem

def File.close (fs : SingleBufferRamFileSystem) (f : File) : SingleBufferRamFileSystem × File :=
  if f.isValid then
    (fs.closeFile f.fileDescriptor, { f with fileSystem := false, fileDescriptor := ⟨0⟩ })
  else (fs, f)

def tryOpenFileWriteBinary (fs : SingleBufferRamFileSystem) (fileName : List UInt8) (fileSize : Nat) (new : Allocation) :
    SingleBufferRamFileSystem × File :=
  let (fs, fd) := fs.tryOpenFileWriteBinary fileSize new
  (fs, File.new fd fileName)

theorem File.isValid_iff {f : File} : f.isValid = true ↔ f.fileDescriptor.raw ≠ 0 ∧ f.fileSystem = true := by
  simp [File.isValid, FileDescriptor.isValid]

/-- What `tryOpenFileWriteBinary` opens a file for: an empty pool, some bytes, and memory for them. -/
def CanOpen (fs : SingleBufferRamFileSystem) (fileSize : Nat) (new : Allocation) : Prop :=
  fs.memoryPool = 0 ∧ fileSize ≠ 0 ∧ new.pointer ≠ 0

instance (fs : SingleBufferRamFileSystem) (fileSize : Nat) (new : Allocation) : Decidable (CanOpen fs fileSize new) :=
  inferInstanceAs (Decidable (_ ∧ _ ∧ _))

section
variable {fs : SingleBufferRamFileSystem} {name : List UInt8} {size : Nat} {new : Allocation}

theorem SingleBufferRamFileSystem.tryOpen_opened (h : CanOpen fs size new) : fs.tryOpenFileWriteBinary size new =
    ({ fs with memoryPool := new.pointer, pool := new.block size }, ⟨new.pointer⟩) := by
  obtain ⟨hpool, hsize, hnew⟩ := h
  simp only [SingleBufferRamFileSystem.tryOpenFileWriteBinary, hpool, hsize, hnew, ne_eq, not_true_eq_false, if_false]

theorem SingleBufferRamFileSystem.tryOpen_refused (h : ¬ CanOpen fs size new) :
    fs.tryOpenFileWriteBinary size new = (fs, ⟨0⟩) := by
  unfold SingleBufferRamFileSystem.tryOpenFileWriteBinary
  split
  · rfl
  · rename_i hpool
    split
    · rfl
    · rename_i hsize
      split
      · rfl
      · rename_i hnew
        exact absurd ⟨Decidable.not_not.mp hpool, hsize, hnew⟩ h

theorem tryOpenFileWriteBinary_opened (h : CanOpen fs size new) : tryOpenFileWriteBinary fs name size new =
    ({ fs with memoryPool := new.pointer, pool := new.block size }, File.new ⟨new.pointer⟩ name) := by
  rw [tryOpenFileWriteBinary, SingleBufferRamFileSystem.tryOpen_opened h]

theorem tryOpenFileWriteBinary_refused (h : ¬ CanOpen fs size new) :
    tryOpenFileWriteBinary fs name size new = (fs, File.new ⟨0⟩ name) := by
  rw [tryOpenFileWriteBinary, SingleBufferRamFileSystem.tryOpen_refused h]

end

theorem length_append (fs : SingleBufferRamFileSystem) (fd : FileDescriptor) (buffer : List UInt8) :
    (fs.append fd buffer).1.pool.length = fs.pool.length := by
  simp only [SingleBufferRamFileSystem.append, SingleBufferRamFileSystem.memoryPoolSize, splice, List.length_append,
    List.length_take, List.length_drop]
  omega

/-- What fits behind the cursor is stored there. -/
theorem append_of_fits {fs : SingleBufferRamFileSystem} (fd : FileDescriptor) {buffer : List UInt8}
    (h : fs.memoryPoolCurrentPosition + buffer.length ≤ fs.memoryPoolSize) : fs.append fd buffer =
      ({ fs with
          pool := splice fs.pool fs.memoryPoolCurrentPosition buffer
          memoryPoolCurrentPosition := fs.memoryPoolCurrentPosition + buffer.length
          memoryPoolNextWritePosition := fs.memoryPoolCurrentPosition + buffer.length }, buffer.length) := by
  have hmin : min buffer.length (fs.memoryPoolSize - fs.memoryPoolCurrentPosition) = buffer.length := by omega
  simp only [SingleBufferRamFileSystem.append, hmin, List.take_length]

/-- Two strings are stored like the one that they make. -/
theorem append_append {fs : SingleBufferRamFileSystem} (fd : FileDescriptor) {xs ys : List UInt8}
    (h : fs.memoryPoolCurrentPosition + (xs ++ ys).length ≤ fs.memoryPoolSize) :
    ((fs.append fd xs).1.append fd ys).1 = (fs.append fd (xs ++ ys)).1 := by
  rw [List.length_append] at h
  have hsize : (fs.append fd xs).1.memoryPoolSize = fs.memoryPoolSize := length_append fs fd xs
  have hxs : fs.memoryPoolCurrentPosition + xs.length ≤ fs.memoryPoolSize := by omega
  have hboth : fs.memoryPoolCurrentPosition + (xs ++ ys).length ≤ fs.memoryPoolSize := by
    rw [List.length_append]
    exact h
  have hinside : fs.memoryPoolCurrentPosition ≤ fs.pool.length := by
    unfold SingleBufferRamFileSystem.memoryPoolSize at hxs
    omega
  rw [append_of_fits fd hboth]
  rw [append_of_fits fd hxs] at hsize ⊢
  rw [append_of_fits]
  · simp only [splice_splice hinside, List.length_append, Nat.add_assoc]
  · refine Nat.le_trans ?_ (Nat.le_of_eq hsize.symm)
    show fs.memoryPoolCurrentPosition + xs.length + ys.length ≤ _
    omega

/-! ## Moving the cursor -/

/-- `fs'` is `fs` but for the cursor. -/
def Moved (fs fs' : SingleBufferRamFileSystem) : Prop := ∃ cursor, fs' = { fs with memoryPoolCurrentPosition := cursor }

section
variable {fs fs' fs'' : SingleBufferRamFileSystem} (f : File)

theorem Moved.refl (fs : SingleBufferRamFileSystem) : Moved fs fs := ⟨_, rfl⟩

theorem Moved.trans (h : Moved fs fs') (h' : Moved fs' fs'') : Moved fs fs'' := by
  obtain ⟨c, rfl⟩ := h
  obtain ⟨c', rfl⟩ := h'
  exact ⟨c', rfl⟩

theorem File.seek_moved (fs : SingleBufferRamFileSystem) (offset : Int) (origin : Position) :
    Moved fs (f.seek fs offset origin).1 := by
  simp only [File.seek, FileSystem.seek, SingleBufferRamFileSystem.seek]
  split
  · split
    · exact .refl fs
    · exact ⟨_, rfl⟩
  · exact .refl fs

theorem File.getCurrentPosition_moved (fs : SingleBufferRamFileSystem) : Moved fs (f.getCurrentPosition fs).1 := by
  have h := f.seek_moved fs 0 .current
  unfold File.seek at h
  unfold File.getCurrentPosition
  split
  · rename_i hf
    rw [if_pos hf] at h
    exact h
  · exact .refl fs

theorem File.read_moved (fs : SingleBufferRamFileSystem) (n : Nat) : Moved fs (f.read fs n).1 := by
  simp only [File.read, FileSystem.read, SingleBufferRamFileSystem.read]
  split
  · split
    · exact .refl fs
    · exact ⟨_, rfl⟩
  · exact .refl fs

end

/-! ## An open file, its bytes and its cursor -/

/-- `f` is the open file of `fs`; its bytes are `content` and its cursor stands at `cursor`.
    No object is larger than a signed word counts. -/
structure Holds (fs : SingleBufferRamFileSystem) (f : File) (content : List UInt8) (cursor : Nat) : Prop where
  fileSystem : f.fileSystem = true
  descriptor : f.fileDescriptor.raw = fs.memoryPool
  next : fs.memoryPoolNextWritePosition = content.length
  current : fs.memoryPoolCurrentPosition = cursor
  inside : cursor ≤ content.length
  content : fs.pool.take content.length = content
  size : fs.memoryPoolSize < 2 ^ 31

section
variable {fs : SingleBufferRamFileSystem} {f : File} {content : List UInt8} {cursor : Nat}

theorem Holds.fits (h : Holds fs f content cursor) : content.length ≤ fs.memoryPoolSize := by
  have := congrArg List.length h.content
  simp only [List.length_take] at this
  unfold SingleBufferRamFileSystem.memoryPoolSize
  omega

theorem Holds.length_lt (h : Holds fs f content cursor) : content.length < 2 ^ 31 :=
  Nat.lt_of_le_of_lt h.fits h.size

/-- The file with its cursor moved. -/
theorem Holds.at_cursor (h : Holds fs f content cursor) {c : Nat} (hc : c ≤ content.length) :
    Holds { fs with memoryPoolCurrentPosition := c } f content c :=
  { h with current := rfl, inside := hc }

/-- Seeking from the start puts the cursor there, or at the end of a shorter file. -/
theorem Holds.seek_start (h : Holds fs f content cursor) (off : Nat) (hoff : off < 2 ^ 31) :
    File.seek fs f off .start = ({ fs with memoryPoolCurrentPosition := min off content.length }, (cursor : Int)) := by
  have hl := h.length_lt
  have hc := h.inside
  have hm : uint32 ((min off content.length : Nat) : Int) = min off content.length := uint32_of_lt (by omega)
  have ho : uint32 ((0 : Int) + off) = off := by rw [Int.zero_add]; exact uint32_of_lt (by omega)
  have hn : uint32 (content.length : Int) = content.length := uint32_of_lt (by omega)
  simp only [File.seek, h.fileSystem, if_true, FileSystem.seek, SingleBufferRamFileSystem.seek, h.descriptor, h.next,
    h.current, ne_eq, not_true_eq_false, if_false, uint32_int32, ho, hn, hm]
  rw [int32_of_lt (by omega)]

theorem Holds.rewind (h : Holds fs f content cursor) :
    File.seek fs f 0 .start = ({ fs with memoryPoolCurrentPosition := 0 }, (cursor : Int)) := by
  simpa using h.seek_start 0 (by omega)

theorem Holds.getCurrentPosition (h : Holds fs f content cursor) : File.getCurrentPosition fs f = (fs, cursor) := by
  have hl := h.length_lt
  have hc := h.inside
  have hi : int32 (cursor : Int) = cursor := int32_of_lt (by omega)
  have hu : uint32 (cursor : Int) = cursor := uint32_of_lt (by omega)
  have hn : uint32 (content.length : Int) = content.length := uint32_of_lt (by omega)
  have hm : min cursor content.length = cursor := Nat.min_eq_left hc
  simp only [File.getCurrentPosition, h.fileSystem, if_true, FileSystem.seek, SingleBufferRamFileSystem.seek,
    h.descriptor, h.next, h.current, ne_eq, not_true_eq_false, if_false, uint32_int32, hi, Int.add_zero, hu, hn, hm]
  rw [← h.current, ← h.next]

/-- Reading answers the bytes at the cursor, as many as there are, and moves it behind them. -/
theorem Holds.read (h : Holds fs f content cursor) (n : Nat) :
    File.read fs f n = ({ fs with memoryPoolCurrentPosition := cursor + ((content.drop cursor).take n).length },
      (content.drop cursor).take n) := by
  simp only [File.read, h.fileSystem, if_true, FileSystem.read, SingleBufferRamFileSystem.read, h.descriptor, h.next,
    h.current, ne_eq, not_true_eq_false, if_false, Prod.mk.injEq, SingleBufferRamFileSystem.mk.injEq, true_and]
  constructor
  · simp only [List.length_take, List.length_drop]
  · conv => rhs; rw [← h.content]
    rw [List.drop_take, List.take_take]

structure IsOpen (fs : SingleBufferRamFileSystem) (f : File) : Prop where
  fileSystem : f.fileSystem = true
  descriptor : f.fileDescriptor.raw = fs.memoryPool
  size : fs.memoryPoolSize < 2 ^ 31

theorem Holds.isOpen (h : Holds fs f content cursor) : IsOpen fs f := ⟨h.fileSystem, h.descriptor, h.size⟩

def refill (fs : SingleBufferRamFileSystem) (f : File) (buffer : List UInt8) : SingleBufferRamFileSystem :=
  (File.append (File.seek fs f 0 .start).1 f buffer).1

theorem IsOpen.refill (h : IsOpen fs f) {b : List UInt8} (hfit : b.length ≤ fs.memoryPoolSize) :
    Holds (refill fs f b) f b b.length ∧ (Bft.refill fs f b).memoryPoolSize = fs.memoryPoolSize := by
  have hs := h.size
  have h0 : (File.seek fs f 0 .start).1 = { fs with memoryPoolCurrentPosition := 0 } := by
    simp [File.seek, h.fileSystem, FileSystem.seek, SingleBufferRamFileSystem.seek, h.descriptor, uint32, int32]
  have hfs : Bft.refill fs f b = { fs with
      pool := splice fs.pool 0 b
      memoryPoolCurrentPosition := b.length
      memoryPoolNextWritePosition := b.length } := by
    have hmin : min b.length fs.memoryPoolSize = b.length := Nat.min_eq_left hfit
    simp only [Bft.refill, h0, File.append, h.fileSystem, if_true, FileSystem.append, SingleBufferRamFileSystem.append,
      SingleBufferRamFileSystem.memoryPoolSize, Nat.sub_zero, Nat.zero_add] at *
    rw [hmin, List.take_length]
  have hlen : (splice fs.pool 0 b).length = fs.pool.length :=
    length_splice (by rw [Nat.zero_add]; exact hfit)
  rw [hfs]
  refine ⟨⟨h.fileSystem, h.descriptor, rfl, rfl, Nat.le_refl _, ?_, ?_⟩, hlen⟩
  · simp [splice]
  · unfold SingleBufferRamFileSystem.memoryPoolSize at *
    rw [hlen]; exact hs

end

end Esp32Cam.Bft
