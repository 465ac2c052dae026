/-
  Esp32Cam.Ut.CircularQueue — the ring as a bounded queue, and the iterators over it.

  An iterator has the position it is at and the number of elements it has still to come by;
  `begin()` and `end()` of a full ring are at one position, and differ by that number alone.

  `Queue` is what the ring is for: a list of at most `n` elements that are taken in the
  order they came in. `behaves_as_a_queue`: a history of calls fails on the ring where it
  does on the queue, with the same answers otherwise; behind it the sizes are those of the
  list, and the loops over the ring come by its elements, in order and in reverse.

  Positions are natural numbers here. No object is as large as a ring of more than 2^31
  slots, and the sums of the positions of a smaller one are words (`Ut.CircularCounter`).
-/

import Esp32Cam.Lib.Iteration
import Esp32Cam.Lib.Refinement
import Esp32Cam.Ut.CircularBuffer

namespace Esp32Cam.Ut

open Esp32Cam.Lib Esp32Cam.Lib.Iteration

variable {n : Nat} {T : Type}

def CircularCounter.rev (n aBase a : Nat) : Nat :=
  let a := a % n
  if aBase < a then n - a + aBase else aBase - a

/-- `arr`, the ring, is left out: iterators are compared within one ring. -/
structure CircularIterator where
  pos : Nat
  ttl : Nat
  deriving DecidableEq, Repr

namespace CircularIterator

/-- `operator++`, with the sign of `Ninc`. -/
def next (n : Nat) (forward : Bool) (it : CircularIterator) : CircularIterator :=
  { pos := if forward then CircularCounter.fwd n it.pos 1 else CircularCounter.rev n it.pos 1, ttl := it.ttl - 1 }

end CircularIterator

inductive Call (T : Type) where
  | pushBack (a : T)
  | emplaceBack (a : T)
  | popFront
  | front
  | back
  deriving DecidableEq, Repr

namespace CircularBuffer

def capacity (b : CircularBuffer T n) : Nat := b.cc.capacity

/-- `some none`: nothing is constructed there. -/
def back (b : CircularBuffer T n) : Option (Option T) :=
  if b.cc.size = 0 then none else some (b.slots (CircularCounter.rev n b.cc.head 1))

def pushBack (fallowOverwrite : Bool) (b : CircularBuffer T n) (a : T) : Option (CircularBuffer T n) :=
  b.emplaceBack fallowOverwrite a

def begin (b : CircularBuffer T n) : CircularIterator := { pos := b.cc.tail, ttl := b.cc.size }

def «end» (b : CircularBuffer T n) : CircularIterator := { pos := b.cc.head, ttl := 0 }

def rbegin (b : CircularBuffer T n) : CircularIterator :=
  { pos := CircularCounter.rev n b.cc.head 1, ttl := b.cc.size }

def rend (b : CircularBuffer T n) : CircularIterator :=
  { pos := CircularCounter.rev n b.cc.tail 1, ttl := 0 }

/-- `operator*` -/
def deref (b : CircularBuffer T n) (it : CircularIterator) : Option T := b.slots it.pos

/-- `for (auto it = begin(); it != end(); ++it)`, for `turns` turns at most. -/
def iterate (b : CircularBuffer T n) (turns : Nat) : Option (List T) :=
  visits (CircularIterator.next n true) b.deref b.end turns b.begin

/-- The same from `rbegin()` to `rend()`. -/
def iterateReverse (b : CircularBuffer T n) (turns : Nat) : Option (List T) :=
  visits (CircularIterator.next n false) b.deref b.rend turns b.rbegin

def call (fallowOverwrite : Bool) (b : CircularBuffer T n) : Call T → Option (CircularBuffer T n × Option T)
  | .pushBack a => (b.pushBack fallowOverwrite a).map fun b => (b, none)
  | .emplaceBack a => (b.emplaceBack fallowOverwrite a).map fun b => (b, none)
  | .popFront => b.popFront.map fun b => (b, none)
  | .front => some (b, b.front)
  | .back => b.back.map fun x => (b, x)

end CircularBuffer

/-! ## The queue -/

namespace Queue

def push (n : Nat) (fallowOverwrite : Bool) (xs : List T) (a : T) : Option (List T) :=
  if xs.length < n then some (xs ++ [a]) else if fallowOverwrite then some (xs.tail ++ [a]) else none

/-- Of an empty queue nothing is taken, and there is no first element and no last. -/
def call (n : Nat) (fallowOverwrite : Bool) (xs : List T) : Call T → Option (List T × Option T)
  | .pushBack a => (push n fallowOverwrite xs a).map fun xs => (xs, none)
  | .emplaceBack a => (push n fallowOverwrite xs a).map fun xs => (xs, none)
  | .popFront => if xs = [] then none else some (xs.tail, none)
  | .front => some (xs, xs.head?)
  | .back => if xs = [] then none else some (xs, xs.getLast?)

end Queue

/-! ## Positions -/

namespace CircularCounter

/-- A position and the one before it. -/
theorem rev_one {x : Nat} (hn : 0 < n) : rev n ((x + 1) % n) 1 = x % n := by
  unfold rev
  rcases Nat.lt_or_eq_of_le (Nat.succ_le_of_lt hn) with hmany | hone
  · have h1 : 1 % n = 1 := Nat.mod_eq_of_lt hmany
    rcases Nat.lt_or_eq_of_le (Nat.succ_le_of_lt (Nat.mod_lt x hn)) with hlt | hlast
    · have hsucc : (x + 1) % n = x % n + 1 := by
        rw [Nat.add_mod, h1, Nat.mod_eq_of_lt hlt]
      simp only [h1, hsucc]
      rw [if_neg (by omega)]
      omega
    · have hzero : (x + 1) % n = 0 := by
        have hn' : x % n + 1 = n := hlast
        rw [Nat.add_mod, h1, hn', Nat.mod_self]
      simp only [h1, hzero]
      rw [if_pos (by omega)]
      omega
  · subst hone
    simp [Nat.mod_one]

theorem fwd_one (x : Nat) : fwd n (x % n) 1 = (x + 1) % n := by
  rw [fwd, Nat.mod_add_mod]

end CircularCounter

namespace CircularBuffer

variable {b : CircularBuffer T n} {xs : List T} {x a : T}

/-! ## The ring and the list -/

/-- Where no element is, nothing is constructed. -/
structure Holds (b : CircularBuffer T n) (xs : List T) : Prop extends Represents b xs where
  free : ∀ i, xs.length ≤ i → i < n → b.slots ((b.cc.base + i) % n) = none

theorem holds_empty : Holds ({} : CircularBuffer T n) [] where
  toRepresents := represents_empty
  free _ _ _ := rfl

theorem Holds.popFront (h : Holds b (x :: xs)) : ∃ b', b.popFront = some b' ∧ Holds b' xs := by
  obtain ⟨b', hpop, hb'⟩ := h.toRepresents.popFront
  refine ⟨b', hpop, hb', ?_⟩
  have hsize : b.cc.sz = xs.length + 1 := h.size
  simp only [CircularBuffer.popFront, CircularCounter.pop, CircularCounter.size, hsize, Nat.add_one_ne_zero, if_false,
    Nat.le_add_left, if_true, Option.map_some, Option.some.injEq] at hpop
  subst hpop
  intro i hle hlt
  show (if (CircularCounter.fwd n b.cc.base 1 + i) % n = b.cc.base then none else
    b.slots ((CircularCounter.fwd n b.cc.base 1 + i) % n)) = none
  have hpos : (CircularCounter.fwd n b.cc.base 1 + i) % n = (b.cc.base + (i + 1)) % n := by
    rw [CircularCounter.fwd, Nat.mod_add_mod, Nat.add_assoc, Nat.add_comm 1 i]
  rw [hpos]
  rcases Nat.lt_or_eq_of_le (Nat.succ_le_of_lt hlt) with hmore | hround
  · rw [h.free (i + 1) (Nat.succ_le_succ hle) hmore, ite_self]
  · have hround' : i + 1 = n := hround
    rw [hround', Nat.add_mod_right, h.base, if_pos rfl]

theorem Holds.emplaceBack (h : Holds b xs) (hroom : xs.length < n) (fallowOverwrite : Bool) :
    ∃ b', b.emplaceBack fallowOverwrite a = some b' ∧ Holds b' (xs ++ [a]) := by
  obtain ⟨b', hpush, hb'⟩ := h.toRepresents.emplaceBack (a := a) hroom fallowOverwrite
  refine ⟨b', hpush, hb', ?_⟩
  have hsize := h.size
  have hcapacity : ¬ n - xs.length = 0 := by omega
  have hone : 1 ≤ n - xs.length := by omega
  simp only [CircularBuffer.emplaceBack, ensureCapacity, CircularCounter.capacity, hsize, hcapacity, if_false,
    Option.bind_some, CircularCounter.push, emplaceAt, hone, if_true, Option.map_some, Option.some.injEq] at hpush
  subst hpush
  intro i hle hlt
  rw [List.length_append, List.length_singleton] at hle
  show (if (b.cc.base + i) % n = (b.cc.base + b.cc.sz) % n then some a else b.slots ((b.cc.base + i) % n)) = none
  have hne : (b.cc.base + b.cc.sz) % n ≠ (b.cc.base + i) % n := slot_ne (by omega) (by omega)
  rw [if_neg hne.symm]
  exact h.free i (by omega) hlt

/-- A ring that is full fails, or lets go of its first element. -/
theorem Holds.emplaceBack_full (h : Holds b (x :: xs)) (hfull : xs.length + 1 = n) :
    b.emplaceBack false a = none ∧ ∃ b', b.emplaceBack true a = some b' ∧ Holds b' (xs ++ [a]) := by
  have hcapacity : b.cc.capacity = 0 := by
    unfold CircularCounter.capacity
    rw [h.size, List.length_cons, hfull, Nat.sub_self]
  constructor
  · simp [CircularBuffer.emplaceBack, ensureCapacity, hcapacity]
  · obtain ⟨b', hpop, hb'⟩ := h.popFront
    obtain ⟨b'', hpush, hb''⟩ := hb'.emplaceBack (a := a) (by omega) true
    refine ⟨b'', ?_, hb''⟩
    have hroom : b'.cc.capacity ≠ 0 := by
      unfold CircularCounter.capacity
      rw [hb'.size]
      omega
    unfold CircularBuffer.emplaceBack ensureCapacity at hpush ⊢
    rw [if_neg hroom] at hpush
    rw [if_pos hcapacity, if_pos rfl, hpop]
    exact hpush

theorem Holds.front_eq (h : Holds b xs) (hn : 0 < n) : b.front = xs.head? := by
  cases xs with
  | nil =>
    have hnone := h.free 0 (Nat.le_refl _) hn
    rw [Nat.add_zero, h.base] at hnone
    exact hnone
  | cons x xs => exact h.toRepresents.front

theorem Holds.back_eq (h : Holds b xs) (hn : 0 < n) (hne : xs ≠ []) : b.back = some xs.getLast? := by
  have hsize := h.size
  have hpos : 0 < xs.length := List.length_pos_iff.mpr hne
  have hlast : b.cc.base + xs.length = b.cc.base + (xs.length - 1) + 1 := by omega
  have hslot := h.slots (xs.length - 1) (by omega)
  unfold CircularBuffer.back CircularCounter.size CircularCounter.head
  rw [hsize, if_neg (by omega), hlast, CircularCounter.rev_one hn, hslot, List.getLast?_eq_getElem?]

/-! ## Iterating -/

/-- From the first element forward. -/
theorem Holds.passes (h : Holds b xs) :
    Passes (CircularIterator.next n true) b.deref b.end b.begin xs := by
  have hsize := h.size
  have hplaces := passes_of_places (CircularIterator.next n true) b.deref b.end xs
    (fun i => { pos := (b.cc.base + i) % n, ttl := xs.length - i })
  have hbegin : b.begin = { pos := (b.cc.base + 0) % n, ttl := xs.length - 0 } := by
    simp [begin, CircularCounter.tail, CircularCounter.size, hsize, h.base]
  rw [hbegin]
  apply hplaces
  · intro i hi
    simp only [CircularIterator.next, if_true, CircularCounter.fwd_one, Nat.add_assoc, Nat.sub_sub]
  · intro i hi
    exact h.slots i hi
  · intro i hi heq
    have httl : xs.length - i = 0 := congrArg CircularIterator.ttl heq
    omega
  · simp [CircularBuffer.end, CircularCounter.head, hsize]

/-- From the last element back. The positions are counted a round further on, so that none of
    them falls below zero. -/
theorem Holds.passes_reverse (h : Holds b xs) (hn : 0 < n) :
    Passes (CircularIterator.next n false) b.deref b.rend b.rbegin xs.reverse := by
  have hsize := h.size
  have hbound := h.bound
  have hplaces := passes_of_places (CircularIterator.next n false) b.deref b.rend xs.reverse
    (fun i => { pos := (b.cc.base + (n - 1 + xs.length - i)) % n, ttl := xs.length - i })
  have hround : ∀ i, (b.cc.base + (n + i)) % n = (b.cc.base + i) % n := by
    intro i
    rw [Nat.add_left_comm, Nat.add_mod_left]
  rw [List.length_reverse] at hplaces
  have hbegin : b.rbegin = { pos := (b.cc.base + (n - 1 + xs.length - 0)) % n, ttl := xs.length - 0 } := by
    have hsucc : b.cc.base + (n + xs.length) = b.cc.base + (n - 1 + xs.length) + 1 := by omega
    simp only [rbegin, CircularCounter.head, CircularCounter.size, hsize, Nat.sub_zero]
    rw [← hround, hsucc, CircularCounter.rev_one hn]
  rw [hbegin]
  apply hplaces
  · intro i hi
    have hsucc : b.cc.base + (n - 1 + xs.length - i) = b.cc.base + (n - 1 + xs.length - (i + 1)) + 1 := by omega
    simp only [CircularIterator.next, Bool.false_eq_true, if_false, hsucc, CircularCounter.rev_one hn, Nat.sub_sub]
  · intro i hi
    have hpos : n - 1 + xs.length - i = n + (xs.length - 1 - i) := by omega
    rw [List.getElem?_reverse hi]
    show b.slots ((b.cc.base + (n - 1 + xs.length - i)) % n) = _
    rw [hpos, hround]
    exact h.slots _ (by omega)
  · intro i hi heq
    have httl : xs.length - i = 0 := congrArg CircularIterator.ttl heq
    omega
  · have hsucc : b.cc.base + n = b.cc.base + (n - 1) + 1 := by omega
    have htail : b.cc.tail = (b.cc.base + n) % n := by rw [Nat.add_mod_right, h.base, CircularCounter.tail]
    simp only [rend, htail, hsucc, CircularCounter.rev_one hn, Nat.add_sub_cancel, Nat.sub_self]

/-! ## Histories -/

/-- The ring is as large as the queue, and the loops over it come by the queue's elements. -/
structure IsQueue (b : CircularBuffer T n) (xs : List T) : Prop where
  fits : xs.length ≤ n
  size : b.size = xs.length
  size_capacity : b.size + b.capacity = n
  forward : ∀ turns, xs.length < turns → b.iterate turns = some xs
  backward : ∀ turns, xs.length < turns → b.iterateReverse turns = some xs.reverse

theorem Holds.isQueue (h : Holds b xs) (hn : 0 < n) : IsQueue b xs where
  fits := h.bound
  size := h.size
  size_capacity := by
    have hsize := h.size
    have hbound := h.bound
    show b.cc.sz + (n - b.cc.sz) = n
    omega
  forward turns hturns := h.passes.visits_eq hturns
  backward turns hturns := (h.passes_reverse hn).visits_eq (by rwa [List.length_reverse])

theorem Holds.push (h : Holds b xs) (hn : 0 < n) (fallowOverwrite : Bool) (a : T) :
    Option.Rel Holds (b.emplaceBack fallowOverwrite a) (Queue.push n fallowOverwrite xs a) := by
  unfold Queue.push
  by_cases hroom : xs.length < n
  · obtain ⟨b', hpush, hb'⟩ := h.emplaceBack (a := a) hroom fallowOverwrite
    rw [if_pos hroom, hpush]
    exact .some hb'
  · rw [if_neg hroom]
    have hbound := h.bound
    cases xs with
    | nil => exact absurd hn hroom
    | cons x xs =>
      rw [List.length_cons] at hroom hbound
      obtain ⟨hfails, b', hpush, hb'⟩ := h.emplaceBack_full (a := a) (by omega)
      cases fallowOverwrite with
      | false =>
        rw [hfails]
        exact .none
      | true =>
        rw [hpush]
        exact .some hb'

/-- A call on the ring is the call on the queue. -/
theorem call_refines (hn : 0 < n) (fallowOverwrite : Bool) :
    Refines Holds (call (T := T) (n := n) fallowOverwrite) (Queue.call n fallowOverwrite) := by
  intro b xs c h
  have hpushed : ∀ a, Option.Rel (fun p q => Holds p.1 q.1 ∧ p.2 = q.2)
      ((b.emplaceBack fallowOverwrite a).map fun b => (b, (none : Option T)))
      ((Queue.push n fallowOverwrite xs a).map fun xs => (xs, none)) := by
    intro a
    exact rel_map (h.push hn fallowOverwrite a) fun _ _ h => ⟨h, rfl⟩
  cases c with
  | pushBack a => exact hpushed a
  | emplaceBack a => exact hpushed a
  | popFront =>
    cases xs with
    | nil =>
      have hsize : b.cc.sz = 0 := h.size
      simp only [call, Queue.call, CircularBuffer.popFront, CircularCounter.size, hsize, if_true, Option.map_none]
      exact .none
    | cons x xs =>
      obtain ⟨b', hpop, hb'⟩ := h.popFront
      simp only [call, Queue.call, hpop, Option.map_some, List.tail_cons]
      exact .some ⟨hb', rfl⟩
  | front => exact .some ⟨h, h.front_eq hn⟩
  | back =>
    by_cases hnil : xs = []
    · have hsize : b.cc.sz = 0 := by rw [h.size, hnil, List.length_nil]
      simp only [call, Queue.call, CircularBuffer.back, CircularCounter.size, hsize, hnil, if_true, Option.map_none]
      exact .none
    · simp only [call, Queue.call, h.back_eq hn hnil, if_neg hnil, Option.map_some]
      exact .some ⟨h, rfl⟩

/-- **The ring is a bounded queue.** A history fails on the ring where it does on the queue, and has the
    same answers; the ring has the queue's size, and is gone through in its order and in reverse. -/
theorem behaves_as_a_queue (hn : 0 < n) (fallowOverwrite : Bool) (calls : List (Call T)) :
    Option.Rel (fun p q => IsQueue p.1 q.1 ∧ p.2 = q.2)
      (trace (call fallowOverwrite) ({} : CircularBuffer T n) calls)
      (trace (Queue.call n fallowOverwrite) [] calls) := by
  refine rel_mono ((call_refines hn fallowOverwrite).trace holds_empty calls) ?_
  intro p q ⟨hholds, hanswers⟩
  exact ⟨hholds.isQueue hn, hanswers⟩

/-- A ring of three that is overwritten twice. -/
theorem behaves_as_a_queue_overwritten :
    Option.Rel (fun p q => IsQueue p.1 q.1 ∧ p.2 = q.2)
      (trace (call true) ({} : CircularBuffer Nat 3)
        [.pushBack 1, .pushBack 2, .emplaceBack 3, .pushBack 4, .pushBack 5, .front, .back])
      (some ([3, 4, 5], [none, none, none, none, none, some 3, some 5])) :=
  behaves_as_a_queue (by decide) true _

end CircularBuffer

end Esp32Cam.Ut
