/-
  Esp32Cam.Bft.FlushingBufferFileSystem — a file that is handed on whenever its buffer is full.

  The file system keeps one file, in the RAM file system below it. `append` splits what it
  is given over the buffer: where an append of the file takes less than the whole request,
  the subscribers are notified of the buffer, and the cursor goes back to its start.

  The subscribers are handed the file: `Subscriber` is what they make of it, with a state
  of their own. A panic ends the program, and a loop that appends to a buffer without room
  does not end: a call gives its result or the reason for which there is none.
-/

import Esp32Cam.Bft.FileSystem

namespace Esp32Cam.Bft

open Esp32Cam.Lib

inductive Stop where
  | panicked
  | exhausted
  deriving DecidableEq, Repr

theorem ok_of_map_eq_ok {ε α β : Type} {f : α → β} {x : Except ε α} {b : β} (h : x.map f = .ok b) :
    ∃ a, x = .ok a ∧ f a = b := by
  cases x with
  | error e => cases h
  | ok a => exact ⟨a, rfl, Except.ok.inj h⟩

/-- The file of the file system, once it is opened. -/
structure FlushingBufferFileSystem where
  bufferFileSystem : SingleBufferRamFileSystem
  bufferFile : Option File
  deriving DecidableEq, Repr

namespace FlushingBufferFileSystem

def init (bufferFileSystem : SingleBufferRamFileSystem) : FlushingBufferFileSystem := ⟨bufferFileSystem, none⟩

/-- Only one session at a time. The file is kept also where the file system below refuses to open it. -/
def tryOpenFileWriteBinary (fs : FlushingBufferFileSystem) (filePath : List UInt8) (fileSizeHint : Nat) (new : Allocation) :
    FlushingBufferFileSystem × FileDescriptor :=
  if fs.bufferFile.isSome then (fs, ⟨0⟩)
  else
    let (bufferFileSystem, fd) := fs.bufferFileSystem.tryOpenFileWriteBinary fileSizeHint new
    (⟨bufferFileSystem, some (File.new fd filePath)⟩, if fd.isValid then fd else ⟨0⟩)

/-- The pointer is empty when the file is let go, so that the deleter's `closeFile` finds no file. -/
def closeFile (fs : FlushingBufferFileSystem) (fd : FileDescriptor) : FlushingBufferFileSystem :=
  match fs.bufferFile with
  | none => fs
  | some f => if f.fileDescriptor = fd then ⟨(f.close fs.bufferFileSystem).1, none⟩ else fs

/-- The file an operation is for, if the descriptor is its own. -/
def tryAssertFileOperationValid (fs : FlushingBufferFileSystem) (fd : FileDescriptor) : Except Stop (Option File) :=
  if !fd.isValid then .ok none
  else match fs.bufferFile with
    | none => .error .panicked
    | some f => if fd = f.fileDescriptor then .ok (some f) else .ok none

def seek (fs : FlushingBufferFileSystem) (fd : FileDescriptor) (offset : Int) (origin : Position) :
    Except Stop (FlushingBufferFileSystem × Int) :=
  (fs.tryAssertFileOperationValid fd).map fun
    | none => (fs, positionError)
    | some f =>
      let (ram, position) := f.seek fs.bufferFileSystem offset origin
      ({ fs with bufferFileSystem := ram }, position)

def read (fs : FlushingBufferFileSystem) (fd : FileDescriptor) (outBufferSize : Nat) :
    Except Stop (FlushingBufferFileSystem × List UInt8) :=
  (fs.tryAssertFileOperationValid fd).map fun
    | none => (fs, [])
    | some f =>
      let (ram, data) := f.read fs.bufferFileSystem outBufferSize
      ({ fs with bufferFileSystem := ram }, data)

/-- A descriptor is the file's, or that of no file, or there is no file to ask. -/
theorem tryAssert_cases (fs : FlushingBufferFileSystem) (fd : FileDescriptor) :
    (∃ f, fs.bufferFile = some f ∧ fd = f.fileDescriptor ∧ fd.isValid = true ∧
        fs.tryAssertFileOperationValid fd = .ok (some f)) ∨
      (∀ f, fs.bufferFile = some f → fd.isValid = true → fd ≠ f.fileDescriptor) ∧
        (fd.isValid = true → fs.bufferFile ≠ none) ∧ fs.tryAssertFileOperationValid fd = .ok none ∨
      fs.bufferFile = none ∧ fd.isValid = true ∧ fs.tryAssertFileOperationValid fd = .error .panicked := by
  unfold tryAssertFileOperationValid
  by_cases hvalid : fd.isValid = true
  · cases hfile : fs.bufferFile with
    | none => simp [hvalid]
    | some f =>
      by_cases hfd : fd = f.fileDescriptor
      · left
        exact ⟨f, rfl, hfd, hvalid, by simp [hvalid, ← hfd]⟩
      · right
        left
        simp [hvalid, hfd]
  · right
    left
    simp [hvalid]

theorem bufferFile_of_assert (fs : FlushingBufferFileSystem) {fd : FileDescriptor} {f : File}
    (h : fs.tryAssertFileOperationValid fd = .ok (some f)) : fs.bufferFile = some f := by
  rcases fs.tryAssert_cases fd with ⟨f', hf, -, -, hassert⟩ | ⟨-, -, hassert⟩ | ⟨-, -, hassert⟩
  · rw [hassert] at h
    cases h
    exact hf
  · rw [hassert] at h
    cases h
  · rw [hassert] at h
    cases h

end FlushingBufferFileSystem

/-! ## Flushes -/

abbrev Subscriber (σ : Type) := σ → SingleBufferRamFileSystem → File → Bool → σ × SingleBufferRamFileSystem

/-- They read it and move its cursor. -/
def Subscriber.OnlyMoves {σ : Type} (subscriber : Subscriber σ) : Prop :=
  ∀ state ram file isLastChunk, Moved ram (subscriber state ram file isLastChunk).2

structure Flush where
  ram : SingleBufferRamFileSystem
  isLastChunk : Bool
  deriving DecidableEq, Repr

def SingleBufferRamFileSystem.written (ram : SingleBufferRamFileSystem) : List UInt8 :=
  ram.pool.take ram.memoryPoolCurrentPosition

def Flush.chunk (x : Flush) : List UInt8 := x.ram.written

/-- The file system, its subscribers, and the notifications so far. -/
structure Session (σ : Type) where
  fs : FlushingBufferFileSystem
  subscribers : σ
  flushes : List Flush
  deriving Repr

namespace Session

variable {σ : Type} (subscriber : Subscriber σ)

def ram (s : Session σ) : SingleBufferRamFileSystem := s.fs.bufferFileSystem

def setRam (s : Session σ) (ram : SingleBufferRamFileSystem) : Session σ :=
  { s with fs := { s.fs with bufferFileSystem := ram } }

def notifyAllOnFileBufferingFinished (s : Session σ) (file : File) (isLastChunk : Bool) : Session σ :=
  let (subscribers, ram) := subscriber s.subscribers s.ram file isLastChunk
  { s.setRam ram with
    subscribers := subscribers
    flushes     := s.flushes ++ [⟨s.ram, isLastChunk⟩] }

/-- The buffer is handed on, and written from its start again. -/
def flush (s : Session σ) (file : File) : Session σ :=
  let s := s.notifyAllOnFileBufferingFinished subscriber file false
  s.setRam (file.seek s.ram 0 .start).1

/-- The loop of `append`. -/
def appendLoop (file : File) (buffer : List UInt8) : Nat → Session σ → Nat → Except Stop (Session σ × Nat)
  | 0, _, _ => .error .exhausted
  | fuel + 1, s, position =>
    if position < buffer.length then
      let (ram, nAppended) := file.append s.ram (buffer.drop position)
      let s := s.setRam ram
      let s := if nAppended ≠ buffer.length then s.flush subscriber file else s
      appendLoop file buffer fuel s (position + nAppended)
    else .ok (s, position)

def append (s : Session σ) (fd : FileDescriptor) (buffer : List UInt8) : Except Stop (Session σ × Nat) :=
  match s.fs.tryAssertFileOperationValid fd with
  | .error e => .error e
  | .ok none => .ok (s, 0)
  | .ok (some f) => appendLoop subscriber f buffer (buffer.length + 2) s 0

def appendAll (s : Session σ) (fd : FileDescriptor) : List (List UInt8) → Except Stop (Session σ × List Nat)
  | [] => .ok (s, [])
  | buffer :: buffers =>
    match s.append subscriber fd buffer with
    | .error e => .error e
    | .ok (s, n) => (appendAll s fd buffers).map fun (s, ns) => (s, n :: ns)

end Session

end Esp32Cam.Bft
