/-
  Esp32Cam.Bft.RamCursor — the cursor of the RAM file against a file of bytes.

  `ByteFile` is what is meant: bytes up to the end of the data, a cursor between them, an
  append that stores at the cursor and ends the data there, a read from the cursor on, and
  a seek that clamps into the data and answers where the cursor stands. Whatever is done to
  the RAM file, its cursor stays within the data and the data within the pool.

  `append` and `read` do what the byte file does. `seek` answers the position the cursor
  had, and clamps unsigned words, so that a position before the start goes to the end
  (`a_seek_before_the_start_goes_to_the_end`). So a run conforms exactly when no seek of it
  moves the cursor (`cursor_semantics_iff`).
-/

import Esp32Cam.Lib.Run
import Esp32Cam.Bft.FileLifecycle

namespace Esp32Cam.Bft

open Esp32Cam.Lib

inductive CursorOperation where
  | append (buffer : List UInt8)
  | seek (offset : Int32) (origin : Position)
  | read (outBufferSize : Nat)
  deriving DecidableEq

/-! ## A file of bytes -/

structure ByteFile where
  capacity : Nat
  contents : List UInt8
  cursor : Nat
  fits : contents.length ≤ capacity
  inside : cursor ≤ contents.length

namespace ByteFile

theorem length_stored (b : ByteFile) (buffer : List UInt8) :
    (b.contents.take b.cursor ++ buffer.take (b.capacity - b.cursor)).length =
      b.cursor + min buffer.length (b.capacity - b.cursor) := by
  have hinside := b.inside
  rw [List.length_append, List.length_take, List.length_take]
  omega

/-- As many bytes as fit are stored at the cursor, and the data end behind them. -/
def append (b : ByteFile) (buffer : List UInt8) : ByteFile × Answer :=
  ({ capacity := b.capacity
     contents := b.contents.take b.cursor ++ buffer.take (b.capacity - b.cursor)
     cursor   := b.cursor + min buffer.length (b.capacity - b.cursor)
     fits     := by
      have hfits := b.fits
      have hinside := b.inside
      rw [b.length_stored]
      omega
     inside   := by rw [b.length_stored] },
    .count (min buffer.length (b.capacity - b.cursor)))

def position (b : ByteFile) : Position → Nat
  | .start => 0
  | .current => b.cursor
  | .end => b.contents.length

def clamp (length : Nat) (target : Int) : Nat := (max 0 (min target length)).toNat

theorem clamp_le (length : Nat) (target : Int) : clamp length target ≤ length := by
  unfold clamp
  omega

/-- The new position is answered. -/
def seek (b : ByteFile) (offset : Int) (origin : Position) : ByteFile × Answer :=
  let target := clamp b.contents.length (b.position origin + offset)
  ({ b with
      cursor := target
      inside := clamp_le _ _ }, .position target)

def read (b : ByteFile) (outBufferSize : Nat) : ByteFile × Answer :=
  let data := (b.contents.drop b.cursor).take outBufferSize
  ({ b with
      cursor := b.cursor + data.length
      inside := by
        have hinside := b.inside
        rw [List.length_take, List.length_drop]
        omega }, .data data)

def perform (b : ByteFile) : CursorOperation → ByteFile × Answer
  | .append buffer => b.append buffer
  | .seek offset origin => b.seek offset.toInt origin
  | .read outBufferSize => b.read outBufferSize

end ByteFile

/-! ## The RAM file -/

namespace SingleBufferRamFileSystem

def perform (fs : SingleBufferRamFileSystem) (fd : FileDescriptor) : CursorOperation → SingleBufferRamFileSystem × Answer
  | .append buffer =>
    let r := fs.append fd buffer
    (r.1, .count r.2)
  | .seek offset origin =>
    let r := fs.seek fd offset.toInt origin
    (r.1, .position r.2)
  | .read outBufferSize =>
    let r := fs.read fd outBufferSize
    (r.1, .data r.2)

def step (fd : FileDescriptor) (fs : SingleBufferRamFileSystem) (op : CursorOperation) : SingleBufferRamFileSystem :=
  (fs.perform fd op).1

/-- The cursor stands within the data, and the data within the pool. -/
def InBounds (fs : SingleBufferRamFileSystem) : Prop :=
  fs.memoryPoolCurrentPosition ≤ fs.memoryPoolNextWritePosition ∧ fs.memoryPoolNextWritePosition ≤ fs.memoryPoolSize

/-- The byte file behind the pool and the two positions. -/
structure Represents (fs : SingleBufferRamFileSystem) (b : ByteFile) : Prop where
  size : fs.memoryPoolSize = b.capacity
  contents : fs.pool.take fs.memoryPoolNextWritePosition = b.contents
  next : fs.memoryPoolNextWritePosition = b.contents.length
  current : fs.memoryPoolCurrentPosition = b.cursor

/-- The operation does what the byte file does, and answers the same. -/
def Conforms (fd : FileDescriptor) (fs : SingleBufferRamFileSystem) (op : CursorOperation) : Prop :=
  ∃ b, Represents fs b ∧ Represents (fs.perform fd op).1 (b.perform op).1 ∧ (fs.perform fd op).2 = (b.perform op).2

def position (fs : SingleBufferRamFileSystem) : Position → Nat
  | .start => 0
  | .current => fs.memoryPoolCurrentPosition
  | .end => fs.memoryPoolNextWritePosition

/-- A seek leaves the cursor where it is, and does not go before the start. Positions of more than half a
    word's range cannot be answered, and ones behind the range wrap around. -/
def SeekStays (fs : SingleBufferRamFileSystem) : CursorOperation → Prop
  | .seek offset origin =>
    let target : Int := fs.position origin + offset.toInt
    ByteFile.clamp fs.memoryPoolNextWritePosition target = fs.memoryPoolCurrentPosition ∧
      fs.memoryPoolCurrentPosition < 2 ^ 31 ∧ (0 ≤ target ∧ target < 2 ^ 32 ∨ fs.memoryPoolNextWritePosition = 0)
  | _ => True

section
variable {fs : SingleBufferRamFileSystem} {fd : FileDescriptor} {b : ByteFile}

theorem Represents.inBounds (h : Represents fs b) : fs.InBounds := by
  have hfits := b.fits
  have hinside := b.inside
  rw [← h.next] at hfits hinside
  rw [← h.size] at hfits
  rw [← h.current] at hinside
  exact ⟨hinside, hfits⟩

theorem InBounds.represents (h : fs.InBounds) : ∃ b, Represents fs b := by
  have hlength : (fs.pool.take fs.memoryPoolNextWritePosition).length = fs.memoryPoolNextWritePosition := by
    rw [List.length_take]
    exact Nat.min_eq_left h.2
  refine ⟨⟨fs.memoryPoolSize, fs.pool.take fs.memoryPoolNextWritePosition, fs.memoryPoolCurrentPosition, ?_, ?_⟩,
    rfl, rfl, hlength.symm, rfl⟩
  · rw [hlength]
    exact h.2
  · rw [hlength]
    exact h.1

/-- There is one such byte file. -/
theorem Represents.unique {b' : ByteFile} (h : Represents fs b) (h' : Represents fs b') : b = b' := by
  obtain ⟨capacity, contents, cursor, _, _⟩ := b
  obtain ⟨capacity', contents', cursor', _, _⟩ := b'
  obtain rfl : capacity = capacity' := h.size.symm.trans h'.size
  obtain rfl : contents = contents' := h.contents.symm.trans h'.contents
  obtain rfl : cursor = cursor' := h.current.symm.trans h'.current
  rfl

theorem Represents.append (h : Represents fs b) (fd : FileDescriptor) (buffer : List UInt8) :
    Represents (fs.append fd buffer).1 (b.append buffer).1 ∧
      (fs.append fd buffer).2 = min buffer.length (b.capacity - b.cursor) := by
  have hbounds := h.inBounds
  have hk : min buffer.length (fs.memoryPoolSize - fs.memoryPoolCurrentPosition) =
      min buffer.length (b.capacity - b.cursor) := by rw [h.size, h.current]
  have hcontents : b.contents.take b.cursor = fs.pool.take fs.memoryPoolCurrentPosition := by
    rw [← h.contents, ← h.current, List.take_take, Nat.min_eq_left hbounds.1]
  have hstored : buffer.take (b.capacity - b.cursor) =
      buffer.take (min buffer.length (fs.memoryPoolSize - fs.memoryPoolCurrentPosition)) := by
    rw [hk, List.take_eq_take_min, Nat.min_comm]
  refine ⟨⟨?_, ?_, ?_, ?_⟩, hk⟩
  · exact (length_append fs fd buffer).trans h.size
  · show List.take _ (splice _ _ _) = b.contents.take b.cursor ++ buffer.take (b.capacity - b.cursor)
    have htake := take_splice fs.pool (buffer.take (min buffer.length (fs.memoryPoolSize - fs.memoryPoolCurrentPosition)))
      fs.memoryPoolCurrentPosition (hbounds.1.trans hbounds.2)
    rw [List.length_take, Nat.min_eq_left (Nat.min_le_left _ _)] at htake
    rw [hcontents, hstored]
    exact htake
  · show fs.memoryPoolCurrentPosition + _ = _
    rw [ByteFile.append, b.length_stored, hk, h.current]
  · show fs.memoryPoolCurrentPosition + _ = b.cursor + _
    rw [hk, h.current]

theorem Represents.read (h : Represents fs b) (hopen : fd.raw = fs.memoryPool) (n : Nat) :
    Represents (fs.read fd n).1 (b.read n).1 ∧ (fs.read fd n).2 = (b.contents.drop b.cursor).take n := by
  have hread : fs.read fd n = _ := if_neg fun hne => hne hopen
  have hdata : (fs.pool.drop fs.memoryPoolCurrentPosition).take
      (min n (fs.memoryPoolNextWritePosition - fs.memoryPoolCurrentPosition)) = (b.contents.drop b.cursor).take n := by
    rw [← h.contents, ← h.current, List.drop_take, List.take_take]
  have hlength : min n (fs.memoryPoolNextWritePosition - fs.memoryPoolCurrentPosition) =
      ((b.contents.drop b.cursor).take n).length := by
    rw [List.length_take, List.length_drop, h.next, h.current]
  rw [hread]
  refine ⟨⟨h.size, h.contents, h.next, ?_⟩, hdata⟩
  show fs.memoryPoolCurrentPosition + _ = b.cursor + _
  rw [hlength, h.current]

/-- A seek clamps the unsigned word of the position, and answers where the cursor was. -/
theorem seek_eq (hopen : fd.raw = fs.memoryPool) (hsize : fs.memoryPoolNextWritePosition < 2 ^ 32) (offset : Int)
    (origin : Position) : fs.seek fd offset origin = ({ fs with
      memoryPoolCurrentPosition := min (uint32 (fs.position origin + offset)) fs.memoryPoolNextWritePosition },
      int32 fs.memoryPoolCurrentPosition) := by
  have hseek : fs.seek fd offset origin = _ := if_neg fun hne => hne hopen
  have hcast : ∀ n : Nat, uint32 (min n fs.memoryPoolNextWritePosition : Nat) = min n fs.memoryPoolNextWritePosition :=
    fun n => uint32_of_lt (by omega)
  cases origin with
  | start => simp only [hseek, uint32_int32, uint32_of_lt hsize, hcast, position, Nat.cast_zero]
  | current => simp only [hseek, uint32_int32, uint32_int32_add, uint32_of_lt hsize, hcast, position]
  | «end» => simp only [hseek, uint32_int32, uint32_int32_add, uint32_of_lt hsize, hcast, position]

/-- The unsigned word is clamped to where the position is, unless that lies before the start or wraps around. -/
theorem clamp_iff {length : Nat} (target : Int) (hlow : -2 ^ 31 ≤ target) (hhigh : target < length + 2 ^ 31)
    (hlength : length < 2 ^ 32) :
    min (uint32 target) length = ByteFile.clamp length target ↔ 0 ≤ target ∧ target < 2 ^ 32 ∨ length = 0 := by
  unfold ByteFile.clamp uint32
  omega

/-- The old position is the new one where the cursor stays, and where it can be answered. -/
theorem answer_iff {current : Nat} (target : Nat) (hcurrent : current < 2 ^ 32) :
    int32 current = (target : Int) ↔ target = current ∧ current < 2 ^ 31 := by
  unfold int32 uint32
  omega

theorem position_le (h : fs.InBounds) (origin : Position) : fs.position origin ≤ fs.memoryPoolNextWritePosition := by
  cases origin with
  | start => exact Nat.zero_le _
  | current => exact h.1
  | «end» => exact Nat.le_refl _

theorem Represents.seek_iff (h : Represents fs b) (hopen : fd.raw = fs.memoryPool)
    (hsize : fs.memoryPoolSize < 2 ^ 32) (offset : Int32) (origin : Position) :
    Represents (fs.perform fd (.seek offset origin)).1 (b.perform (.seek offset origin)).1 ∧
        (fs.perform fd (.seek offset origin)).2 = (b.perform (.seek offset origin)).2 ↔
      fs.SeekStays (.seek offset origin) := by
  have hbounds := h.inBounds
  have hnext : fs.memoryPoolNextWritePosition < 2 ^ 32 := Nat.lt_of_le_of_lt hbounds.2 hsize
  have hlow := offset.le_toInt
  have hhigh := offset.toInt_lt
  have horigin := position_le hbounds origin
  have hsame : b.position origin = fs.position origin := by
    cases origin with
    | start => rfl
    | current => exact h.current.symm
    | «end» => exact h.next.symm
  have hcurrent : fs.memoryPoolCurrentPosition < 2 ^ 32 := Nat.lt_of_le_of_lt hbounds.1 hnext
  have hlength : b.contents.length = fs.memoryPoolNextWritePosition := h.next.symm
  have hclamp := clamp_iff (fs.position origin + offset.toInt) (by omega) (by omega) hnext
  have hanswer := answer_iff (ByteFile.clamp fs.memoryPoolNextWritePosition (fs.position origin + offset.toInt))
    hcurrent
  constructor
  · intro h
    rcases h with ⟨hrepresents, hreturned⟩
    have hmoved : (fs.seek fd offset.toInt origin).1.memoryPoolCurrentPosition =
        ByteFile.clamp b.contents.length (b.position origin + offset.toInt) := hrepresents.current
    have hreturned : (fs.seek fd offset.toInt origin).2 =
        ByteFile.clamp b.contents.length (b.position origin + offset.toInt) := Answer.position.inj hreturned
    rw [seek_eq hopen hnext, hlength, hsame] at hmoved hreturned
    exact ⟨(hanswer.mp hreturned).1, (hanswer.mp hreturned).2, hclamp.mp hmoved⟩
  · intro h
    rcases h with ⟨hstays, hword, hrange⟩
    have hmoved := hclamp.mpr hrange
    have hreturned := hanswer.mpr ⟨hstays, hword⟩
    have hcursor : (b.perform (.seek offset origin)).1.cursor =
        ByteFile.clamp fs.memoryPoolNextWritePosition (fs.position origin + offset.toInt) := by
      rw [← hlength, ← hsame]
      rfl
    have hposition : (b.perform (.seek offset origin)).2 = Answer.position
        (ByteFile.clamp fs.memoryPoolNextWritePosition (fs.position origin + offset.toInt)) := by
      rw [← hlength, ← hsame]
      rfl
    have hperform : fs.perform fd (.seek offset origin) =
        ((fs.seek fd offset.toInt origin).1, .position (fs.seek fd offset.toInt origin).2) := rfl
    rw [hperform, seek_eq hopen hnext, hposition]
    exact ⟨⟨h.size, h.contents, h.next, hmoved.trans hcursor.symm⟩, congrArg Answer.position hreturned⟩

/-! ## Runs -/

structure Usable (fd : FileDescriptor) (fs : SingleBufferRamFileSystem) : Prop where
  descriptor : fd.raw = fs.memoryPool
  size : fs.memoryPoolSize < 2 ^ 32
  inBounds : fs.InBounds

theorem Usable.step (h : Usable fd fs) (op : CursorOperation) : Usable fd (fs.step fd op) := by
  obtain ⟨b, hb⟩ := h.inBounds.represents
  cases op with
  | append buffer =>
    refine ⟨h.descriptor, ?_, (hb.append fd buffer).1.inBounds⟩
    show (fs.append fd buffer).1.pool.length < 2 ^ 32
    rw [length_append]
    exact h.size
  | seek offset origin =>
    have hnext : fs.memoryPoolNextWritePosition < 2 ^ 32 := Nat.lt_of_le_of_lt h.inBounds.2 h.size
    show Usable fd (fs.seek fd offset.toInt origin).1
    rw [seek_eq h.descriptor hnext]
    exact ⟨h.descriptor, h.size, Nat.min_le_right _ _, h.inBounds.2⟩
  | read n =>
    have hread := hb.read h.descriptor n
    refine ⟨?_, ?_, hread.1.inBounds⟩
    · show fd.raw = (fs.read fd n).1.memoryPool
      unfold SingleBufferRamFileSystem.read
      split
      · exact h.descriptor
      · exact h.descriptor
    · show (fs.read fd n).1.memoryPoolSize < 2 ^ 32
      rw [hread.1.size]
      exact hb.size ▸ h.size

/-- An operation conforms unless it is a seek that moves the cursor. -/
theorem conforms_iff (h : Usable fd fs) (op : CursorOperation) : fs.Conforms fd op ↔ fs.SeekStays op := by
  obtain ⟨b, hb⟩ := h.inBounds.represents
  have hconforms : fs.Conforms fd op ↔
      Represents (fs.perform fd op).1 (b.perform op).1 ∧ (fs.perform fd op).2 = (b.perform op).2 := by
    constructor
    · intro h
      rcases h with ⟨b', hb', hrest⟩
      obtain rfl := hb.unique hb'
      exact hrest
    · exact fun hrest => ⟨b, hb, hrest⟩
  rw [hconforms]
  cases op with
  | append buffer =>
    have happend := hb.append fd buffer
    exact iff_of_true ⟨happend.1, congrArg Answer.count happend.2⟩ trivial
  | seek offset origin => exact hb.seek_iff h.descriptor h.size offset origin
  | read n =>
    have hread := hb.read h.descriptor n
    exact iff_of_true ⟨hread.1, congrArg Answer.data hread.2⟩ trivial

end

/-- **Cursor semantics.** Throughout every run on an open file the cursor stays within the data and the data
    within the pool; and the operations do and answer what a file of bytes does exactly when every seek of
    the run leaves the cursor where it is, and does not go before the start. -/
theorem cursor_semantics_iff (fs : SingleBufferRamFileSystem) (fd : FileDescriptor) (ops : List CursorOperation)
    (hopen : fd.raw = fs.memoryPool) (hsize : fs.memoryPoolSize < 2 ^ 32) (hbounds : fs.InBounds) :
    Always (step fd) InBounds fs ops ∧
      (Along (step fd) (Conforms fd) fs ops ↔ Along (step fd) SeekStays fs ops) := by
  have husable : Usable fd fs := ⟨hopen, hsize, hbounds⟩
  refine ⟨?_, along_iff (fun _ op h => h.step op) (fun _ op h => conforms_iff h op) husable⟩
  exact (always_of_step (fun _ op h => h.step op) husable ops).mono fun _ h => h.inBounds

def newFile : SingleBufferRamFileSystem := (init.tryOpenFileWriteBinary 4 ⟨1, []⟩).1

theorem newFile_usable : Usable ⟨1⟩ newFile := ⟨rfl, by decide, by decide, by decide⟩

/-- Two bytes, a seek to where the cursor is, a read of nothing, and a third byte. -/
theorem cursor_semantics_of_three_bytes : Along (step ⟨1⟩) (Conforms ⟨1⟩) newFile
    [.append [1, 2], .seek 0 .current, .read 2, .append [3]] :=
  (cursor_semantics_iff newFile ⟨1⟩ [.append [1, 2], .seek 0 .current, .read 2, .append [3]] rfl (by decide)
    newFile_usable.inBounds).2.mpr ⟨trivial, ⟨rfl, by decide, Or.inl (by decide)⟩, trivial, trivial, trivial⟩

/-- A rewind answers 2, and one byte before the start the cursor goes to the end. -/
theorem a_seek_before_the_start_goes_to_the_end :
    let fs := run (step ⟨1⟩) newFile [.append [1, 2]]
    fs.perform ⟨1⟩ (.seek 0 .start) = ({ fs with memoryPoolCurrentPosition := 0 }, .position 2) ∧
      (fs.step ⟨1⟩ (.seek 0 .start)).perform ⟨1⟩ (.seek (-1) .current) =
        ({ fs with memoryPoolCurrentPosition := 2 }, .position 0) ∧
      ¬ Along (step ⟨1⟩) (Conforms ⟨1⟩) newFile [.append [1, 2], .seek 0 .start, .seek (-1) .current] := by
  refine ⟨by decide, by decide, fun halong => ?_⟩
  have hstays := (conforms_iff (newFile_usable.step (.append [1, 2])) (.seek 0 .start)).mp halong.2.1
  exact absurd hstays.1 (by decide)

end SingleBufferRamFileSystem

end Esp32Cam.Bft
