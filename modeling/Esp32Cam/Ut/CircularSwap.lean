/-
  Esp32Cam.Ut.CircularSwap — a pool of buffers that go between a stack and a ring.

  The free buffers are on a stack and the filled ones in a ring; a buffer is borrowed
  from one of them and given back to one of them. A pointer is the index of its buffer.
  Giving back more than fits throws or fails an assertion, and so does taking where there
  is nothing (`none`).

  - `Partition s full borrowed`: every buffer is once on the stack, in the ring, which has
    `full` in it, or among the borrowed ones. Each operation keeps it, and succeeds
    (`Partition.popFree`, `Partition.popFull`, `Partition.pushFree`, `Partition.pushFull`).
-/

import Mathlib.Data.List.FinRange
import Mathlib.Data.List.Perm.Basic
import Esp32Cam.Ut.CircularBuffer

namespace Esp32Cam.Ut

variable {n : Nat} {T Tbuf : Type}

namespace PosArray

/-- The array has room for `n`; writing behind its end throws. -/
def pushBack (n : Nat) (a : List T) (aInstance : T) : Option (List T) :=
  if a.length < n then some (a ++ [aInstance]) else none

/-- The last element, and what is left; there is nothing at the place before the first. -/
def popBack (a : List T) : Option (T × List T) := a.getLast?.map fun x => (x, a.dropLast)

end PosArray

structure CircularSwap (Tbuf : Type) (n : Nat) where
  buffers : Fin n → Tbuf
  /-- The free buffers; the last one is the top. -/
  stack : List (Fin n)
  /-- The buffers with payload. -/
  ring : CircularBuffer (Fin n) n := {}

namespace CircularSwap

/-- The constructor: every buffer is pushed. -/
def start (buffers : Fin n → Tbuf) : CircularSwap Tbuf n := { buffers, stack := List.finRange n }

def countFree (s : CircularSwap Tbuf n) : Nat := s.stack.length

def countFull (s : CircularSwap Tbuf n) : Nat := s.ring.size

def popFree (s : CircularSwap Tbuf n) : Option (Fin n × CircularSwap Tbuf n) :=
  (PosArray.popBack s.stack).map fun (i, stack) => (i, { s with stack })

def pushFree (s : CircularSwap Tbuf n) (aBuffer : Fin n) : Option (CircularSwap Tbuf n) :=
  (PosArray.pushBack n s.stack aBuffer).map fun stack => { s with stack }

def popFull (s : CircularSwap Tbuf n) : Option (Fin n × CircularSwap Tbuf n) :=
  s.ring.front.bind fun i => s.ring.popFront.map fun ring => (i, { s with ring })

def pushFull (s : CircularSwap Tbuf n) (aBuffer : Fin n) : Option (CircularSwap Tbuf n) :=
  (s.ring.emplaceBack false aBuffer).map fun ring => { s with ring }

structure Partition (s : CircularSwap Tbuf n) (full borrowed : List (Fin n)) : Prop where
  ring : s.ring.Represents full
  once : (s.stack ++ full ++ borrowed).Perm (List.finRange n)

variable {s : CircularSwap Tbuf n} {full borrowed : List (Fin n)} {i : Fin n}

theorem partition_start (buffers : Fin n → Tbuf) : Partition (start buffers) [] [] where
  ring := CircularBuffer.represents_empty
  once := by simp [start]

theorem Partition.length (h : Partition s full borrowed) : s.stack.length + full.length + borrowed.length = n := by
  have hlen := h.once.length_eq
  simpa only [List.length_append, List.length_finRange] using hlen

theorem Partition.nodup (h : Partition s full borrowed) : (s.stack ++ full ++ borrowed).Nodup :=
  h.once.nodup_iff.mpr (List.nodup_finRange n)

/-- What is borrowed is not in the ring. -/
theorem Partition.notMem_full (h : Partition s full borrowed) (hi : i ∈ borrowed) : i ∉ full := by
  intro hfull
  exact List.disjoint_of_nodup_append h.nodup (List.mem_append_right _ hfull) hi

theorem Partition.countFull (h : Partition s full borrowed) : s.countFull = full.length := h.ring.size

theorem Partition.popFree (h : Partition s full borrowed) (hfree : s.countFree ≠ 0) :
    ∃ i s', s.popFree = some (i, s') ∧ Partition s' full (i :: borrowed) ∧ s'.buffers = s.buffers := by
  have hne : s.stack ≠ [] := List.length_pos_iff.mp (Nat.pos_of_ne_zero hfree)
  refine ⟨s.stack.getLast hne, { s with stack := s.stack.dropLast }, ?_, ⟨h.ring, ?_⟩, rfl⟩
  · simp [CircularSwap.popFree, PosArray.popBack, List.getLast?_eq_some_getLast hne]
  · have honce := h.once
    rw [← List.dropLast_append_getLast hne] at honce
    refine List.Perm.trans ?_ honce
    show (s.stack.dropLast ++ full ++ s.stack.getLast hne :: borrowed).Perm _
    rw [List.append_assoc, List.append_assoc, List.append_assoc]
    exact List.Perm.append_left _ List.perm_middle

theorem Partition.popFull (h : Partition s (i :: full) borrowed) :
    ∃ s', s.popFull = some (i, s') ∧ Partition s' full (i :: borrowed) ∧ s'.buffers = s.buffers := by
  obtain ⟨ring, hpop, hring⟩ := h.ring.popFront
  refine ⟨{ s with ring }, ?_, ⟨hring, ?_⟩, rfl⟩
  · simp [CircularSwap.popFull, h.ring.front, hpop]
  · refine List.Perm.trans ?_ h.once
    show (s.stack ++ full ++ i :: borrowed).Perm _
    rw [List.append_assoc, List.append_assoc]
    exact List.Perm.append_left _ List.perm_middle

theorem Partition.pushFree (h : Partition s full (i :: borrowed)) :
    ∃ s', s.pushFree i = some s' ∧ Partition s' full borrowed ∧ s'.buffers = s.buffers ∧ s'.ring = s.ring := by
  have hroom : s.stack.length < n := by
    have hlen := h.length
    rw [List.length_cons] at hlen
    omega
  refine ⟨{ s with stack := s.stack ++ [i] }, ?_, ⟨h.ring, ?_⟩, rfl, rfl⟩
  · simp [CircularSwap.pushFree, PosArray.pushBack, hroom]
  · refine List.Perm.trans ?_ h.once
    show (s.stack ++ [i] ++ full ++ borrowed).Perm _
    rw [List.append_assoc, List.append_assoc, List.append_assoc]
    apply List.Perm.append_left
    show (i :: (full ++ borrowed)).Perm (full ++ i :: borrowed)
    exact List.perm_middle.symm

theorem Partition.pushFull (h : Partition s full (i :: borrowed)) :
    ∃ s', s.pushFull i = some s' ∧ Partition s' (full ++ [i]) borrowed ∧ s'.buffers = s.buffers := by
  have hroom : full.length < n := by
    have hlen := h.length
    rw [List.length_cons] at hlen
    omega
  obtain ⟨ring, hpush, hring⟩ := h.ring.emplaceBack (a := i) hroom false
  refine ⟨{ s with ring }, ?_, ⟨hring, ?_⟩, rfl⟩
  · simp [CircularSwap.pushFull, hpush]
  · refine List.Perm.trans ?_ h.once
    show (s.stack ++ (full ++ [i]) ++ borrowed).Perm _
    rw [List.append_assoc, List.append_assoc, List.append_assoc]
    exact List.Perm.append_left _ (List.Perm.refl _)

/-- What is held elsewhere may be listed in any order. -/
theorem Partition.perm {borrowed' : List (Fin n)} (h : Partition s full borrowed) (hperm : borrowed.Perm borrowed') :
    Partition s full borrowed' where
  ring := h.ring
  once := (hperm.symm.append_left _).trans h.once

end CircularSwap

end Esp32Cam.Ut
