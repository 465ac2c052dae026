/-
  Esp32Cam.Bft.FlushingAppend — what the appends to a flushing file hand on.

  One round of the loop stores what fits behind the cursor (`append_spec`) and, unless it
  took the whole request, flushes the buffer (`flush_spec`). So nothing is lost: what the
  subscribers were notified of, and what is left before the cursor, is what was appended
  (`append_loses_nothing`).

  The request is compared with its first part only. Every later part is shorter than the
  request, so that the buffer is flushed behind each of them, filled or not: an append of
  six bytes to a buffer of four flushes four bytes and then two
  (`the_rest_of_a_request_is_flushed_half_empty`). Every flushed buffer is full exactly
  when each request fits, or ends where a buffer does (`intermediate_flushes_full_iff`).
-/

import Esp32Cam.Bft.FlushingBufferFileSystem

namespace Esp32Cam.Bft

open Esp32Cam.Lib

/-! ## The lengths of what is flushed -/

/-- The parts of `n` bytes that are stored into an empty buffer one after the other. -/
def parts (capacity n : Nat) : List Nat :=
  List.replicate (n / capacity) capacity ++ if n % capacity = 0 then [] else [n % capacity]

/-- What an append of `n` bytes flushes from a buffer with `fill` bytes. -/
def flushLengths (capacity fill n : Nat) : List Nat :=
  if n ≤ capacity - fill then []
  else if fill = capacity ∧ n ≤ capacity then [capacity]
  else capacity :: parts capacity (n - (capacity - fill))

/-- How many bytes it leaves in the buffer. -/
def fillAfter (capacity fill n : Nat) : Nat :=
  if n ≤ capacity - fill then fill + n else if fill = capacity ∧ n ≤ capacity then n else 0

def allFlushLengths (capacity : Nat) : Nat → List Nat → List Nat
  | _, [] => []
  | fill, n :: ns => flushLengths capacity fill n ++ allFlushLengths capacity (fillAfter capacity fill n) ns

section
variable {capacity n : Nat}

theorem parts_zero (capacity : Nat) : parts capacity 0 = [] := by simp [parts]

theorem parts_of_lt (hn : 0 < n) (h : n < capacity) : parts capacity n = [n] := by
  simp [parts, Nat.div_eq_of_lt h, Nat.mod_eq_of_lt h, hn.ne']

theorem parts_add (h : 0 < capacity) (n : Nat) : parts capacity (capacity + n) = capacity :: parts capacity n := by
  simp [parts, Nat.add_div_left n h, List.replicate_succ]

/-- The first part, and the others. -/
theorem parts_min (h : 0 < capacity) (hn : 0 < n) : min n capacity :: parts capacity (n - min n capacity) = parts capacity n := by
  by_cases hfull : capacity ≤ n
  · have hparts := parts_add h (n - capacity)
    rw [Nat.add_sub_of_le hfull] at hparts
    rw [Nat.min_eq_right hfull, hparts]
  · rw [Nat.min_eq_left (by omega), Nat.sub_self, parts_zero, parts_of_lt hn (by omega)]

/-- A full buffer is flushed first. -/
theorem flushLengths_full (h : 0 < capacity) (hn : 0 < n) :
    flushLengths capacity capacity n = capacity :: flushLengths capacity 0 n := by
  have hne : ¬ n ≤ capacity - capacity := by omega
  have hzero : ¬ (0 = capacity ∧ n ≤ capacity) := by omega
  unfold flushLengths
  rw [if_neg hne, if_neg hzero, Nat.sub_self, Nat.sub_zero, Nat.sub_zero]
  by_cases hfits : n ≤ capacity
  · rw [if_pos ⟨rfl, hfits⟩, if_pos hfits]
  · have hnot : ¬ (capacity = capacity ∧ n ≤ capacity) := fun hand => hfits hand.2
    have hfirst := parts_min h hn
    rw [Nat.min_eq_right (by omega)] at hfirst
    rw [if_neg hnot, if_neg hfits, hfirst]

theorem fillAfter_full (h : 0 < capacity) (hn : 0 < n) : fillAfter capacity capacity n = fillAfter capacity 0 n := by
  have hne : ¬ n ≤ capacity - capacity := by omega
  have hzero : ¬ (0 = capacity ∧ n ≤ capacity) := by omega
  unfold fillAfter
  rw [if_neg hne, if_neg hzero, Nat.sub_zero, Nat.zero_add]
  simp only [true_and]

/-- The parts of every append fill the buffer, so that no flush finds it part-filled: `n` bytes fit, or are
    taken at once by a buffer that was full, or end where a buffer does. -/
def WholeBuffers (capacity fill n : Nat) : Prop :=
  n ≤ capacity - fill ∨ fill = capacity ∧ n ≤ capacity ∨ capacity ∣ n - (capacity - fill)

instance WholeBuffers.decidable (capacity fill n : Nat) : Decidable (WholeBuffers capacity fill n) :=
  inferInstanceAs (Decidable (_ ∨ _ ∨ _))

def AllWholeBuffers (capacity : Nat) : Nat → List Nat → Prop
  | _, [] => True
  | fill, n :: ns => WholeBuffers capacity fill n ∧ AllWholeBuffers capacity (fillAfter capacity fill n) ns

instance AllWholeBuffers.decidable (capacity : Nat) : ∀ fill ns, Decidable (AllWholeBuffers capacity fill ns)
  | _, [] => inferInstanceAs (Decidable True)
  | fill, n :: ns =>
    have := AllWholeBuffers.decidable capacity (fillAfter capacity fill n) ns
    inferInstanceAs (Decidable (WholeBuffers capacity fill n ∧ AllWholeBuffers capacity (fillAfter capacity fill n) ns))

theorem parts_full_iff (h : 0 < capacity) : (∀ l ∈ parts capacity n, l = capacity) ↔ capacity ∣ n := by
  have hlt := Nat.mod_lt n h
  rw [Nat.dvd_iff_mod_eq_zero]
  unfold parts
  constructor
  · intro hall
    by_contra hne
    rw [if_neg hne] at hall
    have hlast := hall (n % capacity) (List.mem_append_right _ (List.mem_singleton.mpr rfl))
    omega
  · intro hzero l hl
    rw [if_pos hzero, List.append_nil] at hl
    exact List.eq_of_mem_replicate hl

theorem flushLengths_full_iff (h : 0 < capacity) {fill : Nat} :
    (∀ l ∈ flushLengths capacity fill n, l = capacity) ↔ WholeBuffers capacity fill n := by
  unfold flushLengths WholeBuffers
  split
  · exact iff_of_true (List.forall_mem_nil _) (Or.inl ‹_›)
  · split
    · exact iff_of_true (by simp) (Or.inr (Or.inl ‹_›))
    · rw [List.forall_mem_cons, parts_full_iff h]
      tauto

theorem allFlushLengths_full_iff (h : 0 < capacity) (fill : Nat) (ns : List Nat) :
    (∀ l ∈ allFlushLengths capacity fill ns, l = capacity) ↔ AllWholeBuffers capacity fill ns := by
  induction ns generalizing fill with
  | nil => exact iff_of_true (List.forall_mem_nil _) trivial
  | cons n ns ih =>
    rw [allFlushLengths, List.forall_mem_append, flushLengths_full_iff h, ih]
    exact Iff.rfl

end

/-! ## A file that is open -/

/-- `f` is the file the session has open, with a buffer of `capacity` bytes. -/
structure Opened {σ : Type} (s : Session σ) (f : File) (capacity : Nat) : Prop where
  bufferFile : s.fs.bufferFile = some f
  fileSystem : f.fileSystem = true
  descriptor : f.fileDescriptor.raw = s.ram.memoryPool
  valid : f.fileDescriptor.isValid = true
  size : s.ram.memoryPoolSize = capacity
  positive : 0 < capacity
  inside : s.ram.memoryPoolCurrentPosition ≤ capacity

namespace Session

section
variable {σ : Type} {s s' s'' : Session σ}

/-- From `s` to `s'`, `data` is appended and buffers of these lengths are flushed. -/
def Appends (s s' : Session σ) (data : List UInt8) (lengths : List Nat) : Prop :=
  ∃ new, s'.flushes = s.flushes ++ new ∧ (∀ x ∈ new, x.isLastChunk = false) ∧ new.map (·.chunk.length) = lengths ∧
    (new.map Flush.chunk).flatten ++ s'.ram.written = s.ram.written ++ data

theorem Appends.refl (s : Session σ) : Appends s s [] [] := ⟨[], by simp⟩

theorem Appends.trans {data data' : List UInt8} {lengths lengths' : List Nat} (h : Appends s s' data lengths)
    (h' : Appends s' s'' data' lengths') : Appends s s'' (data ++ data') (lengths ++ lengths') := by
  obtain ⟨new, hflushes, hlast, hlengths, hdata⟩ := h
  obtain ⟨new', hflushes', hlast', hlengths', hdata'⟩ := h'
  refine ⟨new ++ new', ?_, ?_, ?_, ?_⟩
  · rw [hflushes', hflushes, List.append_assoc]
  · intro x hx
    exact (List.mem_append.mp hx).elim (hlast x) (hlast' x)
  · rw [List.map_append, hlengths, hlengths']
  · rw [List.map_append, List.flatten_append, List.append_assoc, hdata', ← List.append_assoc, hdata, List.append_assoc]

end

section
variable {σ : Type} {subscriber : Subscriber σ} {s : Session σ} {f : File} {capacity : Nat}

/-- What fits behind the cursor is stored there. -/
theorem append_spec (h : Opened s f capacity) (chunk : List UInt8) :
    let k := min chunk.length (capacity - s.ram.memoryPoolCurrentPosition)
    ∃ ram, f.append s.ram chunk = (ram, k) ∧ Opened (s.setRam ram) f capacity ∧
      ram.memoryPoolCurrentPosition = s.ram.memoryPoolCurrentPosition + k ∧ Appends s (s.setRam ram) (chunk.take k) [] := by
  intro k
  have hsize : s.ram.pool.length = capacity := h.size
  have hinside := h.inside
  have hk : (chunk.take k).length = k := by
    rw [List.length_take]
    omega
  have hrun : s.ram.append f.fileDescriptor chunk = ({ s.ram with
      pool := splice s.ram.pool s.ram.memoryPoolCurrentPosition (chunk.take k)
      memoryPoolCurrentPosition := s.ram.memoryPoolCurrentPosition + k
      memoryPoolNextWritePosition := s.ram.memoryPoolCurrentPosition + k }, k) := by
    simp only [SingleBufferRamFileSystem.append, h.size]
    rfl
  refine ⟨(s.ram.append f.fileDescriptor chunk).1, ?_, ?_, ?_, [], ?_⟩
  · simp only [File.append, h.fileSystem, if_true, FileSystem.append, hrun]
  · rw [hrun]
    refine ⟨h.bufferFile, h.fileSystem, h.descriptor, h.valid, ?_, h.positive, ?_⟩
    · show (splice _ _ _).length = capacity
      rw [length_splice (by omega), hsize]
    · show s.ram.memoryPoolCurrentPosition + k ≤ capacity
      omega
  · rw [hrun]
  · rw [hrun]
    refine ⟨(List.append_nil _).symm, List.forall_mem_nil _, rfl, ?_⟩
    show List.take _ _ = List.take _ _ ++ _
    have htake := take_splice s.ram.pool (chunk.take k) s.ram.memoryPoolCurrentPosition (by omega)
    rw [hk] at htake
    exact htake

/-- Whatever the subscribers do to the cursor, it is at the start behind a flush. -/
theorem flush_ram (hfileSystem : f.fileSystem = true) (hdescriptor : f.fileDescriptor.raw = s.ram.memoryPool)
    (hmoves : subscriber.OnlyMoves) : (s.flush subscriber f).ram = { s.ram with memoryPoolCurrentPosition := 0 } := by
  obtain ⟨c, hc⟩ := hmoves s.subscribers s.ram f false
  show (f.seek (subscriber s.subscribers s.ram f false).2 0 .start).1 = _
  rw [hc]
  simp [File.seek, hfileSystem, FileSystem.seek, SingleBufferRamFileSystem.seek, hdescriptor, uint32, int32]

/-- A flush hands on what stands before the cursor, and puts the cursor back. -/
theorem flush_spec (h : Opened s f capacity) (hmoves : subscriber.OnlyMoves) :
    Opened (s.flush subscriber f) f capacity ∧ (s.flush subscriber f).ram.memoryPoolCurrentPosition = 0 ∧
      Appends s (s.flush subscriber f) [] [s.ram.memoryPoolCurrentPosition] := by
  have hram := flush_ram h.fileSystem h.descriptor hmoves
  have hsize : s.ram.pool.length = capacity := h.size
  refine ⟨⟨h.bufferFile, h.fileSystem, ?_, h.valid, ?_, h.positive, ?_⟩, ?_, [⟨s.ram, false⟩], rfl, ?_, ?_, ?_⟩
  · rw [hram]
    exact h.descriptor
  · rw [hram]
    exact h.size
  · rw [hram]
    exact Nat.zero_le _
  · rw [hram]
  · simp
  · simp [Flush.chunk, SingleBufferRamFileSystem.written, hsize, h.inside]
  · rw [hram]
    simp [Flush.chunk, SingleBufferRamFileSystem.written]

/-! ## The rounds of an append -/

/-- A round that takes a part of the request. -/
theorem appendLoop_part (buffer : List UInt8) (fuel position : Nat) (h : Opened s f capacity) (hmoves : subscriber.OnlyMoves)
    (hposition : position < buffer.length)
    (hpart : min (buffer.length - position) (capacity - s.ram.memoryPoolCurrentPosition) ≠ buffer.length) :
    let k := min (buffer.length - position) (capacity - s.ram.memoryPoolCurrentPosition)
    ∃ s', appendLoop subscriber f buffer (fuel + 1) s position = appendLoop subscriber f buffer fuel s' (position + k) ∧
      Opened s' f capacity ∧ s'.ram.memoryPoolCurrentPosition = 0 ∧
      Appends s s' ((buffer.drop position).take k) [s.ram.memoryPoolCurrentPosition + k] := by
  intro k
  obtain ⟨ram, happend, hopened, hcursor, hstored⟩ := append_spec h (buffer.drop position)
  rw [List.length_drop] at happend hcursor hstored
  obtain ⟨hopened', hcursor', hflushed⟩ := flush_spec hopened hmoves
  refine ⟨(s.setRam ram).flush subscriber f, ?_, hopened', hcursor', ?_⟩
  · rw [appendLoop, if_pos hposition, happend]
    simp only [ne_eq, hpart, not_false_eq_true, if_true]
    rfl
  · have hboth := hstored.trans hflushed
    rw [List.append_nil, show (s.setRam ram).ram = ram from rfl, hcursor] at hboth
    exact hboth

/-- A round that takes the whole request. -/
theorem appendLoop_whole (subscriber : Subscriber σ) (buffer : List UInt8) (fuel : Nat) (h : Opened s f capacity)
    (hpos : 0 < buffer.length) (hfits : buffer.length ≤ capacity - s.ram.memoryPoolCurrentPosition) :
    ∃ s', appendLoop subscriber f buffer (fuel + 2) s 0 = .ok (s', buffer.length) ∧ Opened s' f capacity ∧
      s'.ram.memoryPoolCurrentPosition = s.ram.memoryPoolCurrentPosition + buffer.length ∧ Appends s s' buffer [] := by
  obtain ⟨ram, happend, hopened, hcursor, hstored⟩ := append_spec h buffer
  rw [Nat.min_eq_left hfits] at happend hcursor hstored
  rw [List.take_length] at hstored
  refine ⟨s.setRam ram, ?_, hopened, hcursor, hstored⟩
  rw [appendLoop, if_pos hpos, List.drop_zero, happend]
  simp only [ne_eq, not_true_eq_false, if_false, Nat.zero_add]
  rw [appendLoop, if_neg (Nat.lt_irrefl _)]

/-- The rounds behind the first part of a request: each part is flushed. -/
theorem appendLoop_rest (buffer : List UInt8) (fuel position : Nat) (h : Opened s f capacity) (hmoves : subscriber.OnlyMoves)
    (hempty : s.ram.memoryPoolCurrentPosition = 0) (hpos : 0 < position) (hposition : position ≤ buffer.length)
    (hfuel : buffer.length - position < fuel) :
    ∃ s', appendLoop subscriber f buffer fuel s position = .ok (s', buffer.length) ∧ Opened s' f capacity ∧
      s'.ram.memoryPoolCurrentPosition = 0 ∧
      Appends s s' (buffer.drop position) (parts capacity (buffer.length - position)) := by
  induction fuel generalizing s position with
  | zero => omega
  | succ fuel ih =>
    have hcapacity := h.positive
    rcases Nat.eq_or_lt_of_le hposition with heq | hlt
    · refine ⟨s, ?_, h, hempty, ?_⟩
      · rw [appendLoop, heq, if_neg (Nat.lt_irrefl _)]
      · rw [heq, Nat.sub_self, parts_zero, List.drop_length]
        exact .refl s
    · obtain ⟨s₁, hrun, h₁, hempty₁, hpart⟩ := appendLoop_part buffer fuel position h hmoves hlt (by omega)
      rw [hempty, Nat.sub_zero] at hrun hpart
      obtain ⟨s₂, hrun₂, h₂, hempty₂, hrest⟩ := ih (position + min (buffer.length - position) capacity) h₁ hempty₁
        (by omega) (by omega) (by omega)
      refine ⟨s₂, hrun.trans hrun₂, h₂, hempty₂, ?_⟩
      have hboth := hpart.trans hrest
      rw [← List.drop_drop, List.take_append_drop] at hboth
      have hlater : buffer.length - (position + min (buffer.length - position) capacity) =
          buffer.length - position - min (buffer.length - position) capacity := by omega
      rw [Nat.zero_add, hlater, List.singleton_append, parts_min hcapacity (by omega)] at hboth
      exact hboth

/-- An append to a buffer that is not full. -/
theorem appendLoop_roomy (buffer : List UInt8) (fuel : Nat) (h : Opened s f capacity) (hmoves : subscriber.OnlyMoves)
    (hpos : 0 < buffer.length) (hroom : s.ram.memoryPoolCurrentPosition < capacity) (hfuel : buffer.length < fuel) :
    ∃ s', appendLoop subscriber f buffer fuel s 0 = .ok (s', buffer.length) ∧ Opened s' f capacity ∧
      s'.ram.memoryPoolCurrentPosition = fillAfter capacity s.ram.memoryPoolCurrentPosition buffer.length ∧
      Appends s s' buffer (flushLengths capacity s.ram.memoryPoolCurrentPosition buffer.length) := by
  unfold fillAfter flushLengths
  by_cases hfits : buffer.length ≤ capacity - s.ram.memoryPoolCurrentPosition
  · obtain ⟨s', hrun, h', hcursor, hstored⟩ := appendLoop_whole subscriber buffer (fuel - 2) h hpos hfits
    rw [Nat.sub_add_cancel (by omega)] at hrun
    rw [if_pos hfits, if_pos hfits]
    exact ⟨s', hrun, h', hcursor, hstored⟩
  · obtain ⟨s₁, hrun₁, h₁, hempty₁, hpart⟩ := appendLoop_part buffer (fuel - 1) 0 h hmoves hpos (by omega)
    have hk : min (buffer.length - 0) (capacity - s.ram.memoryPoolCurrentPosition) =
        capacity - s.ram.memoryPoolCurrentPosition := by omega
    rw [hk, Nat.zero_add, Nat.sub_add_cancel (by omega)] at hrun₁
    rw [hk, List.drop_zero, Nat.add_sub_of_le hroom.le] at hpart
    obtain ⟨s₂, hrun₂, h₂, hempty₂, hrest⟩ := appendLoop_rest buffer (fuel - 1)
      (capacity - s.ram.memoryPoolCurrentPosition) h₁ hmoves hempty₁ (by omega) (by omega) (by omega)
    have hnot : ¬ (s.ram.memoryPoolCurrentPosition = capacity ∧ buffer.length ≤ capacity) := by omega
    rw [if_neg hfits, if_neg hfits, if_neg hnot, if_neg hnot]
    have hall := hpart.trans hrest
    rw [List.take_append_drop] at hall
    exact ⟨s₂, hrun₁.trans hrun₂, h₂, hempty₂, hall⟩

/-- What an append does. -/
theorem append_ok (h : Opened s f capacity) (hmoves : subscriber.OnlyMoves) (buffer : List UInt8) :
    ∃ s', s.append subscriber f.fileDescriptor buffer = .ok (s', buffer.length) ∧ Opened s' f capacity ∧
      s'.ram.memoryPoolCurrentPosition = fillAfter capacity s.ram.memoryPoolCurrentPosition buffer.length ∧
      Appends s s' buffer (flushLengths capacity s.ram.memoryPoolCurrentPosition buffer.length) := by
  have hrun : s.append subscriber f.fileDescriptor buffer =
      appendLoop subscriber f buffer (buffer.length + 2) s 0 := by
    simp only [append, FlushingBufferFileSystem.tryAssertFileOperationValid, h.valid, h.bufferFile, Bool.not_true,
      Bool.false_eq_true, if_false, if_true]
  rw [hrun]
  rcases Nat.eq_zero_or_pos buffer.length with hzero | hpos
  · refine ⟨s, ?_, h, ?_, ?_⟩
    · rw [appendLoop, if_neg (by omega), hzero]
    · rw [hzero, fillAfter, if_pos (Nat.zero_le _), Nat.add_zero]
    · rw [List.eq_nil_of_length_eq_zero hzero, List.length_nil, flushLengths, if_pos (Nat.zero_le _)]
      exact .refl s
  · rcases Nat.eq_or_lt_of_le h.inside with hfull | hroom
    · -- nothing fits: the buffer is flushed, and the request taken up once more
      obtain ⟨s₁, hrun₁, h₁, hempty₁, hpart⟩ := appendLoop_part buffer (buffer.length + 1) 0 h hmoves hpos
        (by omega)
      have hk : min (buffer.length - 0) (capacity - s.ram.memoryPoolCurrentPosition) = 0 := by omega
      rw [hk, Nat.add_zero] at hrun₁
      rw [hk, List.take_zero, Nat.add_zero] at hpart
      obtain ⟨s₂, hrun₂, h₂, hcursor, hall⟩ := appendLoop_roomy buffer (buffer.length + 1) h₁ hmoves hpos
        (by rw [hempty₁]; exact h.positive) (Nat.lt_succ_self _)
      have hboth := hpart.trans hall
      rw [hempty₁] at hcursor hboth
      rw [hfull, fillAfter_full h.positive hpos, flushLengths_full h.positive hpos]
      rw [hfull] at hboth
      exact ⟨s₂, hrun₁.trans hrun₂, h₂, hcursor, hboth⟩
    · exact appendLoop_roomy buffer _ h hmoves hpos hroom (by omega)

theorem appendAll_ok (h : Opened s f capacity) (hmoves : subscriber.OnlyMoves) (chunks : List (List UInt8)) :
    ∃ s', s.appendAll subscriber f.fileDescriptor chunks = .ok (s', chunks.map List.length) ∧
      Appends s s' chunks.flatten
        (allFlushLengths capacity s.ram.memoryPoolCurrentPosition (chunks.map List.length)) := by
  induction chunks generalizing s with
  | nil => exact ⟨s, rfl, .refl s⟩
  | cons buffer chunks ih =>
    obtain ⟨s₁, hrun₁, h₁, hcursor, happended⟩ := append_ok h hmoves buffer
    obtain ⟨s₂, hrun₂, hall⟩ := ih h₁
    rw [hcursor] at hall
    refine ⟨s₂, ?_, happended.trans hall⟩
    simp only [appendAll, hrun₁, hrun₂]
    rfl

/-- A file that is opened anew is empty. -/
theorem opened_of_tryOpen {name : List UInt8} {size : Nat} {new : Allocation} (hclosed : s.fs.bufferFile = none)
    (hcursor : s.ram.memoryPoolCurrentPosition = 0) (hopens : CanOpen s.ram size new) :
    let s' : Session σ := { s with fs := (s.fs.tryOpenFileWriteBinary name size new).1 }
    (s.fs.tryOpenFileWriteBinary name size new).2 = ⟨new.pointer⟩ ∧ Opened s' (File.new ⟨new.pointer⟩ name) size ∧
      s'.ram.written = [] := by
  have hvalid : (⟨new.pointer⟩ : FileDescriptor).isValid = true := by simpa [FileDescriptor.isValid] using hopens.2.2
  have hram := SingleBufferRamFileSystem.tryOpen_opened hopens
  change s.fs.bufferFileSystem.tryOpenFileWriteBinary size new = _ at hram
  have hopen : s.fs.tryOpenFileWriteBinary name size new = (⟨{ s.ram with
      memoryPool := new.pointer
      pool := new.block size }, some (File.new ⟨new.pointer⟩ name)⟩, ⟨new.pointer⟩) := by
    simp only [FlushingBufferFileSystem.tryOpenFileWriteBinary, hclosed, hram, hvalid, Option.isSome_none,
      Bool.false_eq_true, if_false, if_true]
  rw [hopen]
  refine ⟨rfl, ⟨rfl, rfl, rfl, hvalid, new.length_block size, Nat.pos_of_ne_zero hopens.2.1, ?_⟩, ?_⟩
  · show s.ram.memoryPoolCurrentPosition ≤ size
    omega
  · show List.take s.ram.memoryPoolCurrentPosition _ = []
    rw [hcursor, List.take_zero]

end

/-- **Nothing is lost.** Every append returns the size it was given, and what the subscribers are notified
    of, with what is left in the buffer, is what stood there and what was appended, byte for byte. -/
theorem append_loses_nothing {σ : Type} (subscriber : Subscriber σ) (s : Session σ) (f : File) (capacity : Nat)
    (chunks : List (List UInt8)) (hopened : Opened s f capacity) (hmoves : subscriber.OnlyMoves) :
    ∃ s' new, s.appendAll subscriber f.fileDescriptor chunks = .ok (s', chunks.map List.length) ∧
      s'.flushes = s.flushes ++ new ∧
      (new.map Flush.chunk).flatten ++ s'.ram.written = s.ram.written ++ chunks.flatten := by
  obtain ⟨s', hrun, new, hflushes, -, -, hdata⟩ := appendAll_ok hopened hmoves chunks
  exact ⟨s', new, hrun, hflushes, hdata⟩

/-- **Full flushes.** Every buffer that the appends flush is full exactly when the sizes asked for are such
    that each of them fits, or ends where a buffer does. -/
theorem intermediate_flushes_full_iff {σ : Type} (subscriber : Subscriber σ) (s : Session σ) (f : File) (capacity : Nat)
    (chunks : List (List UInt8)) (hopened : Opened s f capacity) (hmoves : subscriber.OnlyMoves) :
    ∃ s' new, s.appendAll subscriber f.fileDescriptor chunks = .ok (s', chunks.map List.length) ∧
      s'.flushes = s.flushes ++ new ∧ (∀ x ∈ new, x.isLastChunk = false) ∧
      ((∀ x ∈ new, x.chunk.length = capacity) ↔
        AllWholeBuffers capacity s.ram.memoryPoolCurrentPosition (chunks.map List.length)) := by
  obtain ⟨s', hrun, new, hflushes, hlast, hlengths, -⟩ := appendAll_ok hopened hmoves chunks
  refine ⟨s', new, hrun, hflushes, hlast, ?_⟩
  rw [← allFlushLengths_full_iff hopened.positive, ← hlengths, List.forall_mem_map]

/-! ## A buffer of four bytes -/

/-- A subscriber that reads the start of the buffer and keeps what it has read. -/
def reader : Subscriber (List UInt8) := fun seen ram file _ =>
  let (ram, data) := file.read (file.seek ram 0 .start).1 3
  (seen ++ data, ram)

theorem reader_onlyMoves : reader.OnlyMoves :=
  fun _ ram file _ => (file.seek_moved ram 0 .start).trans (file.read_moved _ 3)

def closed : Session (List UInt8) := ⟨.init .init, [], []⟩

def four : Session (List UInt8) := { closed with fs := (closed.fs.tryOpenFileWriteBinary [0x61] 4 ⟨1, []⟩).1 }

theorem four_opened : Opened four (File.new ⟨1⟩ [0x61]) 4 := (opened_of_tryOpen (s := closed) rfl rfl (by decide)).2.1

/-- Three bytes, and seven behind them. -/
theorem append_loses_nothing_of_three_and_seven : ∃ s' new,
    four.appendAll reader ⟨1⟩ [[1, 2, 3], [4, 5, 6, 7, 8, 9, 10]] = .ok (s', [3, 7]) ∧ s'.flushes = four.flushes ++ new ∧
      (new.map Flush.chunk).flatten ++ s'.ram.written = four.ram.written ++ [1, 2, 3, 4, 5, 6, 7, 8, 9, 10] :=
  append_loses_nothing reader four (File.new ⟨1⟩ [0x61]) 4 [[1, 2, 3], [4, 5, 6, 7, 8, 9, 10]] four_opened reader_onlyMoves

/-- Three bytes, and nine behind them, which end with a buffer. -/
theorem full_flushes_of_three_and_nine : ∃ s' new,
    four.appendAll reader ⟨1⟩ [[1, 2, 3], [4, 5, 6, 7, 8, 9, 10, 11, 12]] = .ok (s', [3, 9]) ∧
      s'.flushes = four.flushes ++ new ∧ ∀ x ∈ new, x.chunk.length = 4 := by
  obtain ⟨s', new, hrun, hflushes, -, hfull⟩ := intermediate_flushes_full_iff reader four (File.new ⟨1⟩ [0x61]) 4
    [[1, 2, 3], [4, 5, 6, 7, 8, 9, 10, 11, 12]] four_opened reader_onlyMoves
  exact ⟨s', new, hrun, hflushes, hfull.mpr (by decide)⟩

/-- Six bytes are flushed as four and two. -/
theorem the_rest_of_a_request_is_flushed_half_empty : ∃ s',
    four.appendAll reader ⟨1⟩ [[1, 2, 3, 4, 5, 6]] = .ok (s', [6]) ∧
      s'.flushes.map (fun x => (x.isLastChunk, x.chunk)) = [(false, [1, 2, 3, 4]), (false, [5, 6])] ∧
      ¬ ∀ x ∈ s'.flushes, x.chunk.length = 4 := by
  refine ⟨_, rfl, rfl, ?_⟩
  decide

end Session

end Esp32Cam.Bft
