/-
  Esp32Cam.Sys.FlashMemory — a flash memory device and its geometry.

  Write blocks (pages) are the unit of reading and writing, erase blocks, of whole
  pages, the unit of erasing. The device keeps the interface's promise: a write that
  reports no error leaves the data in its range and the rest of the block as it was, an
  erase leaves `0xFF`. `faults` says which operation of the device's life fails; a
  failing operation, and one outside the device, changes no byte. `trace` is every
  operation issued, the last one first.
-/

import Esp32Cam.Lib.Word
import Esp32Cam.Lib.Memory

namespace Esp32Cam.Sys

open Esp32Cam.Lib

/-- Sizes in bytes. The size of the device is addressable by a 32-bit word. -/
structure FlashMemoryGeometry where
  writeBlockSize : Nat
  eraseBlockSize : Nat
  nEraseBlocks : Nat
  writeBlockSize_pos : 0 < writeBlockSize
  eraseBlockSize_pos : 0 < eraseBlockSize
  dvd : writeBlockSize ∣ eraseBlockSize
  writeBlockSize_lt : writeBlockSize < 4294967296
  addressable : nEraseBlocks * eraseBlockSize ≤ 4294967296

namespace FlashMemoryGeometry

variable (g : FlashMemoryGeometry)

def size : Nat := g.nEraseBlocks * g.eraseBlockSize
def convertAddressIntoEraseBlockOffset (address : Nat) : Nat := address / g.eraseBlockSize
def convertAddressIntoWriteBlockOffset (address : Nat) : Nat := address / g.writeBlockSize
def convertAddressIntoWriteBlockInnerOffset (address : Nat) : Nat := address % g.writeBlockSize

def pageStart (address : Nat) : Nat := g.convertAddressIntoWriteBlockOffset address * g.writeBlockSize

theorem pageStart_of_dvd {a : Nat} (h : g.writeBlockSize ∣ a) : g.pageStart a = a := Nat.div_mul_cancel h

theorem inner_of_dvd {a : Nat} (h : g.writeBlockSize ∣ a) : g.convertAddressIntoWriteBlockInnerOffset a = 0 :=
  Nat.mod_eq_zero_of_dvd h

theorem dvd_of_erase_dvd {a : Nat} (h : g.eraseBlockSize ∣ a) : g.writeBlockSize ∣ a := Nat.dvd_trans g.dvd h

theorem dvd_pageStart (a : Nat) : g.writeBlockSize ∣ g.pageStart a := Nat.dvd_mul_left _ _

/-- A page lies inside one erase block. -/
theorem page_le_eraseBlock {a : Nat} (h : g.writeBlockSize ∣ a) :
    a + g.writeBlockSize ≤ (g.convertAddressIntoEraseBlockOffset a + 1) * g.eraseBlockSize := by
  obtain ⟨n, hn⟩ := g.dvd
  obtain ⟨k, rfl⟩ := h
  have hlt := Nat.lt_mul_div_succ (g.writeBlockSize * k) g.eraseBlockSize_pos
  unfold convertAddressIntoEraseBlockOffset
  generalize g.writeBlockSize * k / g.eraseBlockSize + 1 = b at hlt
  rw [hn, Nat.mul_assoc, Nat.mul_lt_mul_left g.writeBlockSize_pos] at hlt
  calc g.writeBlockSize * k + g.writeBlockSize = g.writeBlockSize * (k + 1) := by rw [Nat.mul_add, Nat.mul_one]
    _ ≤ g.writeBlockSize * (n * b) := Nat.mul_le_mul_left _ hlt
    _ = b * g.eraseBlockSize := by rw [hn, ← Nat.mul_assoc, Nat.mul_comm]

theorem dvd_size : g.writeBlockSize ∣ g.size := Nat.dvd_trans g.dvd (Nat.dvd_mul_left _ _)

/-- The page of an address inside the device ends inside the device. -/
theorem pageStart_add_le {a : Nat} (h : a < g.size) : g.pageStart a + g.writeBlockSize ≤ g.size := by
  obtain ⟨k, hk⟩ := g.dvd_size
  have hlt : a / g.writeBlockSize < k := by
    rw [hk] at h
    exact (Nat.div_lt_iff_lt_mul g.writeBlockSize_pos).mpr (by rwa [Nat.mul_comm] at h)
  calc g.pageStart a + g.writeBlockSize = (a / g.writeBlockSize + 1) * g.writeBlockSize := by
        rw [Nat.add_mul, Nat.one_mul]; rfl
    _ ≤ k * g.writeBlockSize := Nat.mul_le_mul_right _ hlt
    _ = g.size := by rw [hk, Nat.mul_comm]

end FlashMemoryGeometry

inductive FlashOp where
  | write (writeBlockId writeBlockOffset length : Nat)
  | read (readBlockId readBlockOffset length : Nat)
  | erase (eraseBlockId : Nat)
  deriving DecidableEq, Repr

structure FlashMemory where
  geometry : FlashMemoryGeometry
  bytes : Nat → UInt8
  faults : Nat → Bool
  trace : List FlashOp

namespace FlashMemory

/-- The operation is issued: it is recorded, and is carried out unless it is the
    device's turn to fail or it leaves the device. -/
def issue (d : FlashMemory) (op : FlashOp) (inside : Prop) [Decidable inside] (bytes : Nat → UInt8) :
    FlashMemory × Bool :=
  let ok := !d.faults d.trace.length && decide inside
  ({ d with bytes := if ok then bytes else d.bytes, trace := op :: d.trace }, ok)

def writeBlock (d : FlashMemory) (writeBlockId writeBlockOffset : Nat) (data : List UInt8) : FlashMemory × Bool :=
  let address := writeBlockId * d.geometry.writeBlockSize + writeBlockOffset
  d.issue (.write writeBlockId writeBlockOffset data.length) (address + data.length ≤ d.geometry.size)
    (overlay d.bytes address data)

/-- The bytes read; none when the operation fails. -/
def readBlock (d : FlashMemory) (readBlockId readBlockOffset bufferSize : Nat) : FlashMemory × Option (List UInt8) :=
  let address := readBlockId * d.geometry.writeBlockSize + readBlockOffset
  let (d, ok) := d.issue (.read readBlockId readBlockOffset bufferSize) (address + bufferSize ≤ d.geometry.size) d.bytes
  (d, if ok then some (readMem d.bytes address bufferSize) else none)

def eraseBlock (d : FlashMemory) (eraseBlockId : Nat) : FlashMemory × Bool :=
  d.issue (.erase eraseBlockId) (eraseBlockId < d.geometry.nEraseBlocks)
    (overlay d.bytes (eraseBlockId * d.geometry.eraseBlockSize) (List.replicate d.geometry.eraseBlockSize 0xFF))

/-! What one operation leaves of the device. -/

section
variable (d : FlashMemory)

@[simp] theorem readBlock_geometry (i o n : Nat) : (d.readBlock i o n).1.geometry = d.geometry := rfl
@[simp] theorem readBlock_faults (i o n : Nat) : (d.readBlock i o n).1.faults = d.faults := rfl

/-- Reading changes no byte. -/
@[simp] theorem readBlock_bytes (i o n : Nat) : (d.readBlock i o n).1.bytes = d.bytes := by
  simp [readBlock, issue]

end

/-- A device none of whose operations fail by themselves. -/
def FaultFree (d : FlashMemory) : Prop := ∀ n, d.faults n = false

section
variable {d : FlashMemory}

theorem FaultFree.issue (h : d.FaultFree) (op : FlashOp) {inside : Prop} [Decidable inside] (hi : inside)
    (b : Nat → UInt8) : (d.issue op inside b).1.bytes = b ∧ (d.issue op inside b).2 = true := by
  simp [FlashMemory.issue, h _, hi]

theorem FaultFree.writeBlock (h : d.FaultFree) {i o : Nat} {x : List UInt8}
    (hi : i * d.geometry.writeBlockSize + o + x.length ≤ d.geometry.size) :
    (d.writeBlock i o x).1.bytes = overlay d.bytes (i * d.geometry.writeBlockSize + o) x ∧
      (d.writeBlock i o x).2 = true :=
  h.issue _ hi _

theorem FaultFree.readBlock (h : d.FaultFree) {i o n : Nat}
    (hi : i * d.geometry.writeBlockSize + o + n ≤ d.geometry.size) :
    (d.readBlock i o n).2 = some (readMem d.bytes (i * d.geometry.writeBlockSize + o) n) := by
  simp [FlashMemory.readBlock, FlashMemory.issue, h _, hi]

/-- An erase leaves every byte as it was or `0xFF`, and touches only its block. -/
theorem eraseBlock_bytes_cases (d : FlashMemory) (i a : Nat) :
    (d.eraseBlock i).1.bytes a = d.bytes a ∨ (d.eraseBlock i).1.bytes a = 0xFF := by
  simp only [FlashMemory.eraseBlock, FlashMemory.issue]
  split
  · rcases overlay_cases d.bytes (i * d.geometry.eraseBlockSize) a (List.replicate d.geometry.eraseBlockSize 0xFF)
      with h | ⟨k, hk, _, h⟩
    · exact Or.inl h
    · exact Or.inr (by rw [h, List.getElem_replicate])
  · exact Or.inl rfl

theorem eraseBlock_bytes_before (d : FlashMemory) {i a : Nat} (h : a < i * d.geometry.eraseBlockSize) :
    (d.eraseBlock i).1.bytes a = d.bytes a := by
  simp only [FlashMemory.eraseBlock, FlashMemory.issue]
  split
  · exact overlay_before h
  · rfl

end

/-! ## The operations issued -/

def Inside (g : FlashMemoryGeometry) : FlashOp → Prop
  | .write id offset length => id * g.writeBlockSize + offset + length ≤ g.size
  | .read id offset length => id * g.writeBlockSize + offset + length ≤ g.size
  | .erase id => id < g.nEraseBlocks

/-- `op` is carried out as the `n`-th operation of the device's life. -/
def Succeeds (d : FlashMemory) (n : Nat) (op : FlashOp) : Prop := d.faults n = false ∧ Inside d.geometry op

instance Inside.decidable (g : FlashMemoryGeometry) (op : FlashOp) : Decidable (Inside g op) := by
  cases op <;> exact Nat.decLe _ _

instance Succeeds.decidable (d : FlashMemory) (n : Nat) (op : FlashOp) : Decidable (d.Succeeds n op) :=
  inferInstanceAs (Decidable (_ ∧ _))

/-- The operations behind the first `n`, the last one first. -/
def since (d : FlashMemory) (n : Nat) : List FlashOp := d.trace.take (d.trace.length - n)

/-- `d'` is the device after these operations, whether they succeed or not. -/
structure Issued (d d' : FlashMemory) (ops : List FlashOp) : Prop where
  geometry : d'.geometry = d.geometry
  faults : d'.faults = d.faults
  trace : d'.trace = ops.reverse ++ d.trace

section
variable {d d' d'' : FlashMemory} {ops ops' : List FlashOp} {op : FlashOp} {n : Nat}

theorem Issued.refl (d : FlashMemory) : Issued d d [] := ⟨rfl, rfl, rfl⟩

theorem Issued.trans (h : Issued d d' ops) (h' : Issued d' d'' ops') : Issued d d'' (ops ++ ops') := by
  refine ⟨h'.geometry.trans h.geometry, h'.faults.trans h.faults, ?_⟩
  rw [h'.trace, h.trace, List.reverse_append, List.append_assoc]

theorem Issued.length (h : Issued d d' ops) : d'.trace.length = d.trace.length + ops.length := by
  rw [h.trace, List.length_append, List.length_reverse, Nat.add_comm]

theorem Issued.since (h : Issued d d' ops) : d'.since d.trace.length = ops.reverse := by
  rw [FlashMemory.since, h.length, Nat.add_sub_cancel_left, h.trace, ← List.length_reverse, List.take_left]

theorem Issued.succeeds (h : Issued d d' ops) : d'.Succeeds n op ↔ d.Succeeds n op := by
  rw [Succeeds, Succeeds, h.geometry, h.faults]

theorem issue_issued (d : FlashMemory) (op : FlashOp) (inside : Prop) [Decidable inside] (bytes : Nat → UInt8) :
    Issued d (d.issue op inside bytes).1 [op] := ⟨rfl, rfl, rfl⟩

theorem eraseBlock_issued (d : FlashMemory) (id : Nat) : Issued d (d.eraseBlock id).1 [.erase id] :=
  d.issue_issued _ _ _

theorem readBlock_issued (d : FlashMemory) (id offset length : Nat) :
    Issued d (d.readBlock id offset length).1 [.read id offset length] := d.issue_issued _ _ _

theorem writeBlock_issued (d : FlashMemory) (id offset : Nat) (data : List UInt8) :
    Issued d (d.writeBlock id offset data).1 [.write id offset data.length] := d.issue_issued _ _ _

theorem issue_ok {inside : Prop} [Decidable inside] {bytes : Nat → UInt8} :
    (d.issue op inside bytes).2 = true ↔ d.faults d.trace.length = false ∧ inside := by
  simp [FlashMemory.issue]

theorem writeBlock_ok {id offset : Nat} {data : List UInt8} :
    (d.writeBlock id offset data).2 = true ↔ d.Succeeds d.trace.length (.write id offset data.length) := issue_ok

theorem readBlock_of_succeeds {id offset length : Nat} (h : d.Succeeds d.trace.length (.read id offset length)) :
    ∃ buffer, buffer.length = length ∧ d.readBlock id offset length = ((d.readBlock id offset length).1, some buffer) := by
  obtain ⟨hfault, hinside⟩ := h
  refine ⟨readMem d.bytes (id * d.geometry.writeBlockSize + offset) length, length_readMem _ _ _, ?_⟩
  have hinside' : id * d.geometry.writeBlockSize + offset + length ≤ d.geometry.size := hinside
  simp [FlashMemory.readBlock, FlashMemory.issue, hfault, hinside']

theorem readBlock_of_fails {id offset length : Nat} (h : ¬ d.Succeeds d.trace.length (.read id offset length)) :
    d.readBlock id offset length = ((d.readBlock id offset length).1, none) := by
  refine Prod.ext rfl ?_
  have hfails : ¬ (d.faults d.trace.length = false ∧ id * d.geometry.writeBlockSize + offset + length ≤ d.geometry.size) := h
  simpa [FlashMemory.readBlock, FlashMemory.issue] using hfails

end

end FlashMemory

end Esp32Cam.Sys
