/-
  Esp32Cam.Ut.CircularBuffer — a ring of slots, and the list it stands for.

  `CircularCounter` keeps where the ring begins and how many of its slots are taken, and
  `CircularBuffer` the slots. An assertion that fails ends the program (`none`).

  - `Represents b xs`: the taken slots have the elements of `xs`, in order. Each operation
    on the ring is the one on the list (`Represents.popFront`, `Represents.emplaceBack`,
    `Represents.emplaceBack_overwrite`), and a ring represents one list
    (`Represents.toList_eq`).
-/

import Mathlib.Data.List.Basic

namespace Esp32Cam.Ut

variable {n : Nat} {T : Type}

structure CircularCounter (n : Nat) where
  base : Nat := 0
  sz : Nat := 0
  deriving DecidableEq, Repr

namespace CircularCounter

def fwd (n aBase a : Nat) : Nat := (aBase + a) % n

def tail (c : CircularCounter n) : Nat := c.base

/-- The next insert position. -/
def head (c : CircularCounter n) : Nat := (c.base + c.sz) % n

def capacity (c : CircularCounter n) : Nat := n - c.sz

def size (c : CircularCounter n) : Nat := c.sz

def push (c : CircularCounter n) (a : Nat) : Option (CircularCounter n) :=
  if a ≤ c.capacity then some { c with sz := c.sz + a } else none

/-- The size goes down by one, whatever `a` is. -/
def pop (c : CircularCounter n) (a : Nat) : Option (CircularCounter n) :=
  if a ≤ c.size then some { base := fwd n c.base a, sz := c.sz - 1 } else none

end CircularCounter

structure CircularBuffer (T : Type) (n : Nat) where
  /-- `none`: nothing is constructed there. -/
  slots : Nat → Option T := fun _ => none
  cc : CircularCounter n := {}

namespace CircularBuffer

def size (b : CircularBuffer T n) : Nat := b.cc.size

def emplaceAt (b : CircularBuffer T n) (aPos : Nat) (aElem : T) : CircularBuffer T n :=
  { b with slots := fun pos => if pos = aPos then some aElem else b.slots pos }

def destructAt (b : CircularBuffer T n) (aPos : Nat) : CircularBuffer T n :=
  { b with slots := fun pos => if pos = aPos then none else b.slots pos }

def front (b : CircularBuffer T n) : Option T := b.slots b.cc.tail

def popFront (b : CircularBuffer T n) : Option (CircularBuffer T n) :=
  if b.cc.size = 0 then none
  else (b.cc.pop 1).map fun cc => { b.destructAt b.cc.tail with cc }

def ensureCapacity (fallowOverwrite : Bool) (b : CircularBuffer T n) : Option (CircularBuffer T n) :=
  if b.cc.capacity = 0 then if fallowOverwrite then b.popFront else none else some b

def emplaceBack (fallowOverwrite : Bool) (b : CircularBuffer T n) (a : T) : Option (CircularBuffer T n) :=
  (b.ensureCapacity fallowOverwrite).bind fun b =>
    let b := b.emplaceAt b.cc.head a
    (b.cc.push 1).map fun cc => { b with cc }

/-- The elements from `begin()` to `end()`. -/
def toList (b : CircularBuffer T n) : List T :=
  (List.range b.cc.size).filterMap fun i => b.slots ((b.cc.base + i) % n)

structure Represents (b : CircularBuffer T n) (xs : List T) : Prop where
  base : b.cc.base % n = b.cc.base
  size : b.cc.sz = xs.length
  bound : xs.length ≤ n
  slots : ∀ i < xs.length, b.slots ((b.cc.base + i) % n) = xs[i]?

/-! ## Positions -/

/-- Two positions of one round are different slots. -/
theorem slot_ne {base i j : Nat} (hij : i < j) (hj : j < i + n) : (base + i) % n ≠ (base + j) % n := by
  intro heq
  have hzero : (base + j - (base + i)) % n = 0 := Nat.sub_mod_eq_zero_of_mod_eq heq.symm
  have hdiff : base + j - (base + i) = j - i := by omega
  have hsmall : (j - i) % n = j - i := Nat.mod_eq_of_lt (by omega)
  rw [hdiff, hsmall] at hzero
  omega

theorem filterMap_getElem? (xs : List T) : (List.range xs.length).filterMap (fun i => xs[i]?) = xs := by
  induction xs with
  | nil => rfl
  | cons x xs ih =>
    rw [List.length_cons, List.range_succ_eq_map, List.filterMap_cons, List.filterMap_map]
    exact congrArg (x :: ·) ih

/-! ## What the operations do to the list -/

variable {b : CircularBuffer T n} {xs : List T} {x a : T}

theorem represents_empty : Represents ({} : CircularBuffer T n) [] where
  base := Nat.zero_mod n
  size := rfl
  bound := Nat.zero_le n
  slots i hi := absurd hi (Nat.not_lt_zero i)

theorem Represents.front (h : Represents b (x :: xs)) : b.front = some x := by
  have hfirst := h.slots 0 (by simp)
  rw [Nat.add_zero, h.base] at hfirst
  exact hfirst

theorem Represents.popFront (h : Represents b (x :: xs)) : ∃ b', b.popFront = some b' ∧ Represents b' xs := by
  have hsize : b.cc.sz = xs.length + 1 := h.size
  have hbound : xs.length + 1 ≤ n := h.bound
  refine ⟨{ b.destructAt b.cc.tail with cc := { base := CircularCounter.fwd n b.cc.base 1, sz := b.cc.sz - 1 } }, ?_, ?_⟩
  · simp [CircularBuffer.popFront, CircularCounter.pop, CircularCounter.size, hsize]
  · constructor
    · exact Nat.mod_mod _ n
    · show b.cc.sz - 1 = xs.length
      omega
    · omega
    · intro i hi
      show (if (CircularCounter.fwd n b.cc.base 1 + i) % n = b.cc.base then none else
        b.slots ((CircularCounter.fwd n b.cc.base 1 + i) % n)) = xs[i]?
      have hpos : (CircularCounter.fwd n b.cc.base 1 + i) % n = (b.cc.base + (i + 1)) % n := by
        rw [CircularCounter.fwd, Nat.mod_add_mod, Nat.add_assoc, Nat.add_comm 1 i]
      have hne : (b.cc.base + (i + 1)) % n ≠ b.cc.base := by
        have hfirst : (b.cc.base + 0) % n ≠ (b.cc.base + (i + 1)) % n := slot_ne (Nat.succ_pos i) (by omega)
        rw [Nat.add_zero, h.base] at hfirst
        exact hfirst.symm
      rw [hpos, if_neg hne, h.slots (i + 1) (by simpa using hi)]
      rfl

theorem Represents.emplaceBack (h : Represents b xs) (hroom : xs.length < n) (fallowOverwrite : Bool) :
    ∃ b', b.emplaceBack fallowOverwrite a = some b' ∧ Represents b' (xs ++ [a]) := by
  have hsize := h.size
  refine ⟨{ b.emplaceAt b.cc.head a with cc := { b.cc with sz := b.cc.sz + 1 } }, ?_, ?_⟩
  · have hcapacity : b.cc.capacity ≠ 0 := by
      unfold CircularCounter.capacity
      omega
    have hone : 1 ≤ b.cc.capacity := Nat.one_le_iff_ne_zero.mpr hcapacity
    unfold CircularBuffer.emplaceBack ensureCapacity
    rw [if_neg hcapacity]
    show ((b.cc.push 1).map _) = _
    rw [CircularCounter.push, if_pos hone]
    rfl
  · constructor
    · exact h.base
    · show b.cc.sz + 1 = (xs ++ [a]).length
      rw [hsize, List.length_append, List.length_singleton]
    · rw [List.length_append, List.length_singleton]
      exact hroom
    · intro i hi
      rw [List.length_append, List.length_singleton] at hi
      show (if (b.cc.base + i) % n = (b.cc.base + b.cc.sz) % n then some a else b.slots ((b.cc.base + i) % n)) =
        (xs ++ [a])[i]?
      rw [hsize]
      by_cases hlast : i = xs.length
      · rw [hlast, if_pos rfl, List.getElem?_concat_length]
      · have hlt : i < xs.length := by omega
        rw [if_neg (slot_ne hlt (by omega)), h.slots i hlt, List.getElem?_append_left hlt]

/-- A ring that may be overwritten lets go of its first element. -/
theorem Represents.emplaceBack_overwrite (h : Represents b (x :: xs)) (hfull : xs.length + 1 = n) :
    ∃ b', b.emplaceBack true a = some b' ∧ Represents b' (xs ++ [a]) := by
  obtain ⟨b', hpop, hb'⟩ := h.popFront
  obtain ⟨b'', hpush, hb''⟩ := hb'.emplaceBack (a := a) (by omega) false
  refine ⟨b'', ?_, hb''⟩
  have hcapacity : b.cc.capacity = 0 := by
    unfold CircularCounter.capacity
    rw [h.size, List.length_cons, hfull, Nat.sub_self]
  have hroom : b'.cc.capacity ≠ 0 := by
    unfold CircularCounter.capacity
    rw [hb'.size]
    omega
  unfold CircularBuffer.emplaceBack ensureCapacity at hpush ⊢
  rw [if_neg hroom] at hpush
  rw [if_pos hcapacity, if_pos rfl, hpop]
  exact hpush

theorem Represents.toList_eq (h : Represents b xs) : b.toList = xs := by
  have hslots : ∀ i ∈ List.range xs.length, b.slots ((b.cc.base + i) % n) = xs[i]? := by
    intro i hi
    exact h.slots i (List.mem_range.mp hi)
  unfold toList CircularCounter.size
  rw [h.size, List.filterMap_congr hslots]
  exact filterMap_getElem? xs

end CircularBuffer

end Esp32Cam.Ut
