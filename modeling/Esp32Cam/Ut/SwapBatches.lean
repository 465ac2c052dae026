/-
  Esp32Cam.Ut.SwapBatches — the pool's operations on several buffers at once.

  `popFree(aN)` has the loop of `popFull(aN)`: it asks `countFull()` and takes from the ring.
  Every call returns all the same, and no buffer gets lost (`whole_throughout`).

  - `batches_exact_iff`: whatever single operations and batches the callers make of the pool,
    every buffer stays in one place, and the batches do as they should, exactly when
    `popFree(aN)` is called for no buffer, or when there is neither a free one nor a full one.
-/

import Mathlib.Data.List.Perm.Subperm
import Esp32Cam.Lib.PartialRun
import Esp32Cam.Ut.CircularSwap

namespace Esp32Cam.Ut

open Esp32Cam.Lib

variable {n : Nat} {Tbuf : Type}

namespace CircularSwap

namespace Batch

/-- `while (aN-- && countFull()) arrays.push_back(&popFull());` -/
def drainFull : Nat → List (Fin n) → CircularSwap Tbuf n → Option (List (Fin n) × CircularSwap Tbuf n)
  | 0, arrays, s => some (arrays, s)
  | aN + 1, arrays, s =>
    if s.countFull = 0 then some (arrays, s)
    else s.popFull.bind fun (i, s) => (PosArray.pushBack n arrays i).bind fun arrays => drainFull aN arrays s

/-- The loop is the one of `popFull`. -/
def popFree (aN : Nat) (s : CircularSwap Tbuf n) : Option (List (Fin n) × CircularSwap Tbuf n) := drainFull aN [] s

def popFull (aN : Nat) (s : CircularSwap Tbuf n) : Option (List (Fin n) × CircularSwap Tbuf n) := drainFull aN [] s

def pushFree (aArrays : List (Fin n)) (s : CircularSwap Tbuf n) : Option (CircularSwap Tbuf n) :=
  aArrays.foldlM CircularSwap.pushFree s

def pushFull (aArrays : List (Fin n)) (s : CircularSwap Tbuf n) : Option (CircularSwap Tbuf n) :=
  aArrays.foldlM CircularSwap.pushFull s

end Batch

variable {s s' : CircularSwap Tbuf n} {full borrowed arrays : List (Fin n)} {i : Fin n}

theorem popFull_stack (h : s.popFull = some (i, s')) : s'.stack = s.stack := by
  unfold CircularSwap.popFull at h
  obtain ⟨j, -, hpop⟩ := Option.bind_eq_some_iff.mp h
  obtain ⟨ring, -, heq⟩ := Option.map_eq_some_iff.mp hpop
  cases heq
  rfl

/-! ## The loops -/

/-- The loop takes the oldest full buffers, as many as there are, and leaves the stack alone. -/
theorem Partition.drainFull (arrays : List (Fin n)) (h : Partition s full (arrays ++ borrowed)) (aN : Nat) :
    ∃ s', Batch.drainFull aN arrays s = some (arrays ++ full.take aN, s') ∧
      Partition s' (full.drop aN) (arrays ++ full.take aN ++ borrowed) ∧ s'.stack = s.stack := by
  induction aN generalizing s full arrays with
  | zero => exact ⟨s, by simp [Batch.drainFull], by simpa using h, rfl⟩
  | succ aN ih =>
    have hcount := h.countFull
    cases full with
    | nil =>
      refine ⟨s, ?_, by simpa using h, rfl⟩
      rw [Batch.drainFull, if_pos (by rw [hcount, List.length_nil]), List.take_nil, List.append_nil]
    | cons i full =>
      obtain ⟨t, hpop, ht, -⟩ := h.popFull
      have hmoved : Partition t full (arrays ++ [i] ++ borrowed) := by
        apply ht.perm
        rw [List.append_assoc]
        exact List.perm_middle.symm
      have hroom : arrays.length < n := by
        have hlength := hmoved.length
        simp only [List.length_append, List.length_singleton] at hlength
        omega
      have hany : s.countFull ≠ 0 := by
        rw [hcount, List.length_cons]
        exact Nat.succ_ne_zero _
      have hturn : Batch.drainFull (aN + 1) arrays s = Batch.drainFull aN (arrays ++ [i]) t := by
        have hpush : PosArray.pushBack n arrays i = some (arrays ++ [i]) := if_pos hroom
        simp only [Batch.drainFull, if_neg hany, hpop, hpush, Option.bind_some]
      obtain ⟨s', hdrain, hs', hstack⟩ := ih _ hmoved
      refine ⟨s', ?_, ?_, ?_⟩
      · rw [hturn, hdrain, List.append_assoc]
        rfl
      · rw [List.append_assoc arrays [i]] at hs'
        exact hs'
      · rw [hstack, popFull_stack hpop]

theorem Partition.batchPopFull (h : Partition s full borrowed) (aN : Nat) :
    ∃ s', Batch.popFull aN s = some (full.take aN, s') ∧ Partition s' (full.drop aN) (full.take aN ++ borrowed) ∧
      s'.stack = s.stack :=
  Partition.drainFull [] h aN

/-- What is taken as free is full. -/
theorem Partition.batchPopFree (h : Partition s full borrowed) (aN : Nat) :
    ∃ s', Batch.popFree aN s = some (full.take aN, s') ∧ Partition s' (full.drop aN) (full.take aN ++ borrowed) ∧
      s'.stack = s.stack :=
  Partition.drainFull [] h aN

/-- Nothing is taken for no buffer, and from an empty ring. -/
theorem batchPopFree_nothing {aN : Nat} (h : aN = 0 ∨ s.countFull = 0) : Batch.popFree aN s = some ([], s) := by
  cases aN with
  | zero => rfl
  | succ aN =>
    rcases h with hzero | hempty
    · cases hzero
    · rw [Batch.popFree, Batch.drainFull, if_pos hempty]

theorem Partition.batchPushFree (h : Partition s full (arrays ++ borrowed)) :
    ∃ s', Batch.pushFree arrays s = some s' ∧ Partition s' full borrowed := by
  induction arrays generalizing s with
  | nil => exact ⟨s, rfl, h⟩
  | cons i arrays ih =>
    obtain ⟨t, hpush, ht, -⟩ := h.pushFree
    obtain ⟨s', hrest, hs'⟩ := ih ht
    refine ⟨s', ?_, hs'⟩
    rw [Batch.pushFree, List.foldlM_cons, hpush]
    exact hrest

theorem Partition.batchPushFull (h : Partition s full (arrays ++ borrowed)) :
    ∃ s', Batch.pushFull arrays s = some s' ∧ Partition s' (full ++ arrays) borrowed := by
  induction arrays generalizing s full with
  | nil => exact ⟨s, rfl, by rwa [List.append_nil]⟩
  | cons i arrays ih =>
    obtain ⟨t, hpush, ht, -⟩ := h.pushFull
    obtain ⟨s', hrest, hs'⟩ := ih ht
    refine ⟨s', ?_, by rwa [List.append_assoc] at hs'⟩
    rw [Batch.pushFull, List.foldlM_cons, hpush]
    exact hrest

end CircularSwap

/-! ## Histories -/

inductive PoolOp (n : Nat) where
  | popFree
  | popFull
  | pushFree (aBuffer : Fin n)
  | pushFull (aBuffer : Fin n)
  | popFreeBatch (aN : Nat)
  | popFullBatch (aN : Nat)
  | pushFreeBatch (aArrays : List (Fin n))
  | pushFullBatch (aArrays : List (Fin n))
  deriving DecidableEq, Repr

/-- The pool, the buffers that are borrowed from it, and those the last operation returned. -/
structure Pool (Tbuf : Type) (n : Nat) where
  swap : CircularSwap Tbuf n
  borrowed : List (Fin n) := []
  returned : List (Fin n) := []

namespace Pool

open CircularSwap

def start (buffers : Fin n → Tbuf) : Pool Tbuf n := { swap := CircularSwap.start buffers }

def lend (p : Pool Tbuf n) (taken : List (Fin n) × CircularSwap Tbuf n) : Pool Tbuf n :=
  { swap := taken.2, borrowed := taken.1 ++ p.borrowed, returned := taken.1 }

def takeBack (p : Pool Tbuf n) (given : List (Fin n)) (swap : CircularSwap Tbuf n) : Pool Tbuf n :=
  { swap, borrowed := p.borrowed.diff given }

def step (p : Pool Tbuf n) : PoolOp n → Option (Pool Tbuf n)
  | .popFree => p.swap.popFree.map fun (i, s) => p.lend ([i], s)
  | .popFull => p.swap.popFull.map fun (i, s) => p.lend ([i], s)
  | .pushFree i => (p.swap.pushFree i).map (p.takeBack [i])
  | .pushFull i => (p.swap.pushFull i).map (p.takeBack [i])
  | .popFreeBatch aN => (Batch.popFree aN p.swap).map p.lend
  | .popFullBatch aN => (Batch.popFull aN p.swap).map p.lend
  | .pushFreeBatch aArrays => (Batch.pushFree aArrays p.swap).map (p.takeBack aArrays)
  | .pushFullBatch aArrays => (Batch.pushFull aArrays p.swap).map (p.takeBack aArrays)

/-- A single buffer is asked for where there is one, and what is given back is borrowed. -/
def Contract (p : Pool Tbuf n) : PoolOp n → Prop
  | .popFree => p.swap.countFree ≠ 0
  | .popFull => p.swap.countFull ≠ 0
  | .pushFree i => i ∈ p.borrowed
  | .pushFull i => i ∈ p.borrowed
  | .popFreeBatch _ => True
  | .popFullBatch _ => True
  | .pushFreeBatch aArrays => aArrays.Subperm p.borrowed
  | .pushFullBatch aArrays => aArrays.Subperm p.borrowed

/-- Every buffer is in one place. -/
def Whole (p : Pool Tbuf n) : Prop := ∃ full, Partition p.swap full p.borrowed

def Meets (p : Pool Tbuf n) (op : PoolOp n) (p' : Pool Tbuf n) : Prop :=
  match op with
  | .popFreeBatch aN => p'.returned.length = min aN p.swap.countFree ∧
      p.swap.stack.Perm (p'.returned ++ p'.swap.stack) ∧ p'.swap.ring = p.swap.ring
  | .popFullBatch aN => ∃ full, p.swap.ring.Represents full ∧
      p'.returned = full.take (min aN p.swap.countFull) ∧
      p'.swap.ring.Represents (full.drop (min aN p.swap.countFull)) ∧ p'.swap.stack = p.swap.stack
  | _ => True

/-- A batch of free buffers is asked for no buffer, or there is nothing to take or to mistake. -/
def Allowed (p : Pool Tbuf n) : PoolOp n → Prop
  | .popFreeBatch aN => aN = 0 ∨ (p.swap.countFree = 0 ∧ p.swap.countFull = 0)
  | _ => True

instance (p : Pool Tbuf n) (op : PoolOp n) : Decidable (Contract p op) :=
  match op with
  | .popFree => inferInstanceAs (Decidable (p.swap.countFree ≠ 0))
  | .popFull => inferInstanceAs (Decidable (p.swap.countFull ≠ 0))
  | .pushFree i => inferInstanceAs (Decidable (i ∈ p.borrowed))
  | .pushFull i => inferInstanceAs (Decidable (i ∈ p.borrowed))
  | .popFreeBatch _ => inferInstanceAs (Decidable True)
  | .popFullBatch _ => inferInstanceAs (Decidable True)
  | .pushFreeBatch aArrays => inferInstanceAs (Decidable (aArrays.Subperm p.borrowed))
  | .pushFullBatch aArrays => inferInstanceAs (Decidable (aArrays.Subperm p.borrowed))

instance (p : Pool Tbuf n) (op : PoolOp n) : Decidable (Allowed p op) :=
  match op with
  | .popFreeBatch aN => inferInstanceAs (Decidable (aN = 0 ∨ (p.swap.countFree = 0 ∧ p.swap.countFull = 0)))
  | .popFree => inferInstanceAs (Decidable True)
  | .popFull => inferInstanceAs (Decidable True)
  | .pushFree _ => inferInstanceAs (Decidable True)
  | .pushFull _ => inferInstanceAs (Decidable True)
  | .popFullBatch _ => inferInstanceAs (Decidable True)
  | .pushFreeBatch _ => inferInstanceAs (Decidable True)
  | .pushFullBatch _ => inferInstanceAs (Decidable True)

variable {p p' : Pool Tbuf n} {op : PoolOp n} {full : List (Fin n)}

/-- What is given back comes first among what is borrowed. -/
theorem given_first {given : List (Fin n)} (h : Partition p.swap full p.borrowed)
    (hgiven : given.Subperm p.borrowed) : Partition p.swap full (given ++ p.borrowed.diff given) :=
  h.perm (List.subperm_append_diff_self_of_count_le (List.subperm_ext_iff.mp hgiven)).symm

theorem singleton_subperm {i : Fin n} {borrowed : List (Fin n)} (h : i ∈ borrowed) : [i].Subperm borrowed :=
  List.singleton_subperm_iff.mpr h

/-- What the callers may ask for is done, and every buffer is in one place. -/
theorem Whole.step (h : p.Whole) (hcontract : Contract p op) : ∃ p', p.step op = some p' ∧ p'.Whole := by
  obtain ⟨full, h⟩ := h
  cases op with
  | popFree =>
    obtain ⟨i, s', hpop, hs', -⟩ := h.popFree hcontract
    exact ⟨_, by rw [Pool.step, hpop, Option.map_some], full, hs'⟩
  | popFull =>
    cases full with
    | nil => exact absurd (h.countFull.trans List.length_nil) hcontract
    | cons i full =>
      obtain ⟨s', hpop, hs', -⟩ := h.popFull
      exact ⟨_, by rw [Pool.step, hpop, Option.map_some], full, hs'⟩
  | pushFree i =>
    obtain ⟨s', hpush, hs', -⟩ := (given_first h (singleton_subperm hcontract)).pushFree
    exact ⟨_, by rw [Pool.step, hpush, Option.map_some], full, hs'⟩
  | pushFull i =>
    obtain ⟨s', hpush, hs', -⟩ := (given_first h (singleton_subperm hcontract)).pushFull
    exact ⟨_, by rw [Pool.step, hpush, Option.map_some], full ++ [i], hs'⟩
  | popFreeBatch aN =>
    obtain ⟨s', hpop, hs', -⟩ := h.batchPopFree aN
    exact ⟨_, by rw [Pool.step, hpop, Option.map_some], full.drop aN, hs'⟩
  | popFullBatch aN =>
    obtain ⟨s', hpop, hs', -⟩ := h.batchPopFull aN
    exact ⟨_, by rw [Pool.step, hpop, Option.map_some], full.drop aN, hs'⟩
  | pushFreeBatch aArrays =>
    obtain ⟨s', hpush, hs'⟩ := (given_first h hcontract).batchPushFree
    exact ⟨_, by rw [Pool.step, hpush, Option.map_some], full, hs'⟩
  | pushFullBatch aArrays =>
    obtain ⟨s', hpush, hs'⟩ := (given_first h hcontract).batchPushFull
    exact ⟨_, by rw [Pool.step, hpush, Option.map_some], full ++ aArrays, hs'⟩

theorem Whole.kept (h : p.Whole) (hcontract : Contract p op) (hstep : p.step op = some p') : p'.Whole := by
  obtain ⟨p'', hstep', hp''⟩ := h.step hcontract
  obtain rfl : p'' = p' := Option.some.inj (hstep'.symm.trans hstep)
  exact hp''

/-- A batch of free buffers is right where it is allowed, and there alone. -/
theorem popFreeBatch_meets_iff {aN : Nat} (h : p.Whole) (hstep : p.step (.popFreeBatch aN) = some p') :
    Meets p (.popFreeBatch aN) p' ↔ Allowed p (.popFreeBatch aN) := by
  obtain ⟨full, h⟩ := h
  have hcount := h.countFull
  constructor
  · intro hmeets
    obtain ⟨hlength, -, hring⟩ := hmeets
    obtain ⟨s', hpop, hs', -⟩ := h.batchPopFree aN
    rw [Pool.step, hpop, Option.map_some] at hstep
    obtain rfl := Option.some.inj hstep
    by_cases hzero : aN = 0
    · exact Or.inl hzero
    · have hleft : (full.drop aN).length = full.length := by
        rw [← hs'.countFull, ← hcount]
        exact congrArg CircularBuffer.size hring
      have hnil : full.length = 0 := by
        rw [List.length_drop] at hleft
        omega
      have htaken : (full.take aN).length = min aN p.swap.countFree := hlength
      rw [List.length_take] at htaken
      exact Or.inr ⟨by omega, by omega⟩
  · intro hallowed
    have hnothing : Batch.popFree aN p.swap = some ([], p.swap) := batchPopFree_nothing (hallowed.imp_right And.right)
    rw [Pool.step, hnothing, Option.map_some] at hstep
    obtain rfl := Option.some.inj hstep
    refine ⟨?_, List.Perm.refl _, rfl⟩
    show 0 = min aN p.swap.countFree
    rcases hallowed with hzero | ⟨hfree, -⟩
    · omega
    · omega

theorem popFullBatch_meets {aN : Nat} (h : p.Whole) (hstep : p.step (.popFullBatch aN) = some p') :
    Meets p (.popFullBatch aN) p' := by
  obtain ⟨full, h⟩ := h
  obtain ⟨s', hpop, hs', hstack⟩ := h.batchPopFull aN
  rw [Pool.step, hpop, Option.map_some] at hstep
  obtain rfl := Option.some.inj hstep
  refine ⟨full, h.ring, ?_, ?_, hstack⟩
  · rw [h.countFull]
    exact List.take_eq_take_min
  · rw [h.countFull, ← List.drop_eq_drop_min]
    exact hs'.ring

/-- What the callers may ask for is done as it should be where it is allowed, and there alone. -/
theorem step_meets_iff (h : p.Whole) (hcontract : Contract p op) :
    (∃ p', p.step op = some p' ∧ p'.Whole ∧ Meets p op p') ↔ Allowed p op := by
  obtain ⟨p', hstep, hp'⟩ := h.step hcontract
  have hmeets : Meets p op p' ↔ Allowed p op := by
    cases op with
    | popFreeBatch aN => exact popFreeBatch_meets_iff h hstep
    | popFullBatch aN => exact iff_of_true (popFullBatch_meets h hstep) trivial
    | _ => exact Iff.rfl
  constructor
  · intro h'
    obtain ⟨p'', hstep', -, hmeets'⟩ := h'
    obtain rfl : p' = p'' := Option.some.inj (hstep.symm.trans hstep')
    exact hmeets.mp hmeets'
  · intro hallowed
    exact ⟨p', hstep, hp', hmeets.mpr hallowed⟩

theorem whole_start (buffers : Fin n → Tbuf) : (start buffers).Whole := ⟨[], partition_start buffers⟩

/-- Whatever the batches take, every call returns and every buffer stays in one place. -/
theorem whole_throughout (buffers : Fin n → Tbuf) (ops : List (PoolOp n))
    (hcontract : PartialRun.Allowed step Contract (start buffers) ops) :
    PartialRun.Through step (fun _ _ p' => p'.Whole) (start buffers) ops := by
  refine (PartialRun.through_iff_allowed_under (G := Contract) (I := Whole) ?_ ?_ (whole_start buffers) hcontract).mpr
    hcontract
  · intro p op p' hstep h hk _
    exact h.kept hk hstep
  · intro p op h hk
    exact iff_of_true (h.step hk) hk

/-- **Batches.** In a history in which the callers give back what they have borrowed, every call returns, every buffer
    stays in one place and the batches are what they are for, exactly when no batch of free buffers is asked for
    where there is a buffer to take or to mistake for one. -/
theorem batches_exact_iff (buffers : Fin n → Tbuf) (ops : List (PoolOp n))
    (hcontract : PartialRun.Allowed step Contract (start buffers) ops) :
    PartialRun.Through step (fun p op p' => p'.Whole ∧ Meets p op p') (start buffers) ops ↔
      PartialRun.Allowed step Allowed (start buffers) ops := by
  refine PartialRun.through_iff_allowed_under (I := Whole) ?_ ?_ (whole_start buffers) hcontract
  · intro p op p' hstep h hk _
    exact h.kept hk hstep
  · intro p op h hk
    exact step_meets_iff h hk

/-- Two buffers are filled and taken at once. -/
theorem batches_exact_of_full :
    PartialRun.Through step (fun p op p' => p'.Whole ∧ Meets p op p') (start fun _ : Fin 2 => 0)
      [.popFree, .popFree, .pushFullBatch [1, 0], .popFullBatch 5, .popFreeBatch 0, .pushFreeBatch [0, 1]] :=
  (batches_exact_iff _ _ (by decide)).mpr (by decide)

/-- A batch of one free buffer comes back empty. -/
theorem a_batch_of_free_buffers_is_empty :
    PartialRun.Allowed step Contract (start fun _ : Fin 1 => 0) [.popFreeBatch 1] ∧
    ¬ PartialRun.Through step (fun p op p' => p'.Whole ∧ Meets p op p') (start fun _ : Fin 1 => 0)
      [.popFreeBatch 1] := by
  refine ⟨by decide, ?_⟩
  intro h
  obtain ⟨p', hstep, hmeets, -⟩ := h
  have hcontract : Contract (start fun _ : Fin 1 => 0) (.popFreeBatch 1) := trivial
  have hallowed := (step_meets_iff (whole_start _) hcontract).mp ⟨p', hstep, hmeets⟩
  rcases hallowed with hzero | ⟨hfree, -⟩
  · cases hzero
  · cases hfree

end Pool

end Esp32Cam.Ut
