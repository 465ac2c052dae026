/-
  Esp32Cam.Ut.CircularCounter — the counter of a ring in its machine words.

  `pop(a)` moves the base by `a` and takes one off the size, and the sums wrap at 2^32.

  - `totals_exact_iff`: the base, the size, `tail()` and `head()` are what the totals pushed
    and popped say, throughout a history, exactly when every pop takes one and no push
    takes `tail() + size()` past the words. Up to 2^31 slots no push does that
    (`totals_exact_iff_ones`).
  - `counter_refines`: there, and for single pops, the words are the natural numbers that
    the rings of `Ut.CircularBuffer` are modelled with; so are the positions that the
    iterators come by (`fwd_one_toNat`, `rev_toNat`).
-/

import Mathlib.Algebra.Group.Nat.Defs
import Esp32Cam.Lib.PartialRun
import Esp32Cam.Lib.Refinement
import Esp32Cam.Ut.CircularQueue

namespace Esp32Cam.Ut.Cont

open Esp32Cam.Lib

structure CircularCounter (N : UInt32) where
  base : UInt32 := 0
  sz : UInt32 := 0
  deriving DecidableEq, Repr

namespace CircularCounter

variable {N : UInt32}

def fwd (N aBase a : UInt32) : UInt32 := (aBase + a) % N

def rev (N aBase a : UInt32) : UInt32 :=
  let a := a % N
  if aBase < a then N - a + aBase else aBase - a

def tail (c : CircularCounter N) : UInt32 := c.base

def head (c : CircularCounter N) : UInt32 := (c.base + c.sz) % N

def capacity (c : CircularCounter N) : UInt32 := N - c.sz

def size (c : CircularCounter N) : UInt32 := c.sz

def push (c : CircularCounter N) (a : UInt32) : Option (CircularCounter N) :=
  if a ≤ c.capacity then some { c with sz := c.sz + a } else none

/-- `--sz`, whatever `a` is. -/
def pop (c : CircularCounter N) (a : UInt32) : Option (CircularCounter N) :=
  if a ≤ c.size then some { base := fwd N c.base a, sz := c.sz - 1 } else none

/-! ## Positions in words -/

theorem fwd_one_toNat {aBase : UInt32} (h : aBase < N) : (fwd N aBase 1).toNat = (aBase.toNat + 1) % N.toNat := by
  have hlt : aBase.toNat < N.toNat := UInt32.lt_iff_toNat_lt.mp h
  have hword : N.toNat < 2 ^ 32 := N.toNat_lt
  have hsum : aBase.toNat + 1 < 2 ^ 32 := by omega
  rw [fwd, UInt32.toNat_mod, UInt32.toNat_add, UInt32.toNat_one, Nat.mod_eq_of_lt hsum]

theorem rev_toNat {aBase : UInt32} (h : aBase < N) (a : UInt32) :
    (rev N aBase a).toNat = Ut.CircularCounter.rev N.toNat aBase.toNat a.toNat := by
  have hlt : aBase.toNat < N.toNat := UInt32.lt_iff_toNat_lt.mp h
  have hword : N.toNat < 2 ^ 32 := N.toNat_lt
  have hmod : (a % N).toNat = a.toNat % N.toNat := UInt32.toNat_mod a N
  have hsmall : a.toNat % N.toNat < N.toNat := Nat.mod_lt _ (by omega)
  unfold rev Ut.CircularCounter.rev
  simp only [UInt32.lt_iff_toNat_lt, hmod]
  by_cases hwrap : aBase.toNat < a.toNat % N.toNat
  · have hle : a % N ≤ N := UInt32.le_iff_toNat_le.mpr (by omega)
    rw [if_pos hwrap, if_pos hwrap, UInt32.toNat_add, UInt32.toNat_sub_of_le _ _ hle, hmod]
    exact Nat.mod_eq_of_lt (by omega)
  · have hle : a % N ≤ aBase := UInt32.le_iff_toNat_le.mpr (by omega)
    rw [if_neg hwrap, if_neg hwrap, UInt32.toNat_sub_of_le _ _ hle, hmod]

end CircularCounter

inductive CounterOp where
  | push (a : UInt32)
  | pop (a : UInt32)
  deriving DecidableEq, Repr

/-- The counter, and what has been pushed and popped altogether. -/
structure Tally (N : UInt32) where
  counter : CircularCounter N := {}
  pushed : Nat := 0
  popped : Nat := 0

namespace Tally

variable {N : UInt32} {t t' : Tally N}

/-- An operation whose assertion fails ends the history. -/
def step (t : Tally N) : CounterOp → Option (Tally N)
  | .push a => (t.counter.push a).map fun counter => { t with counter, pushed := t.pushed + a.toNat }
  | .pop a => (t.counter.pop a).map fun counter => { t with counter, popped := t.popped + a.toNat }

structure Counted (t : Tally N) : Prop where
  base : t.counter.base < N
  bound : t.counter.size ≤ N
  size : t.counter.size.toNat + t.popped = t.pushed
  tail : t.counter.tail.toNat = t.popped % N.toNat

structure Exact (t : Tally N) : Prop extends Counted t where
  head : t.counter.head.toNat = t.pushed % N.toNat

/-- A pop takes one, and a push leaves `tail() + size()` a word. -/
def Allowed (t : Tally N) : CounterOp → Prop
  | .push a => t.counter.tail.toNat + t.counter.size.toNat + a.toNat < 2 ^ 32
  | .pop a => a = 1

/-- The sum that `head()` takes does not wrap. -/
def Unwrapped (t : Tally N) : Prop := t.counter.base.toNat + t.counter.sz.toNat < 2 ^ 32

/-! ## Where the head is -/

/-- No size above 2^31 divides 2^32: a sum of two positions that has wrapped is another residue. -/
theorem wrapped_residue_ne {x n : Nat} (hn : n < 2 ^ 32) (hwrap : 2 ^ 32 ≤ x) (hx : x < 2 * n) :
    x % 2 ^ 32 % n ≠ x % n := by
  have hword : x % 2 ^ 32 = x - 2 ^ 32 := by omega
  have hmod : x % n = x - n := by
    rw [Nat.mod_eq_sub_mod (by omega), Nat.mod_eq_of_lt (by omega)]
  rw [hword, hmod, Nat.mod_eq_of_lt (by omega)]
  omega

theorem Counted.pushed_mod (h : t.Counted) :
    t.pushed % N.toNat = (t.counter.base.toNat + t.counter.sz.toNat) % N.toNat := by
  have htail : t.counter.base.toNat = t.popped % N.toNat := h.tail
  rw [← h.size, htail, Nat.mod_add_mod, Nat.add_comm]
  rfl

/-- The head is right as long as its sum does not wrap, and no longer. -/
theorem Counted.exact_iff (h : t.Counted) : t.Exact ↔ t.Unwrapped := by
  have hbase : t.counter.base.toNat < N.toNat := UInt32.lt_iff_toNat_lt.mp h.base
  have hbound : t.counter.sz.toNat ≤ N.toNat := UInt32.le_iff_toNat_le.mp h.bound
  have hword : N.toNat < 2 ^ 32 := N.toNat_lt
  have hhead : t.counter.head.toNat = (t.counter.base.toNat + t.counter.sz.toNat) % 2 ^ 32 % N.toNat := by
    rw [CircularCounter.head, UInt32.toNat_mod, UInt32.toNat_add]
  constructor
  · intro hexact
    have hright := hexact.head
    rw [hhead, h.pushed_mod] at hright
    by_contra hwrap
    exact wrapped_residue_ne hword (Nat.le_of_not_lt hwrap) (by omega) hright
  · intro hsum
    refine ⟨h, ?_⟩
    rw [hhead, h.pushed_mod, Nat.mod_eq_of_lt hsum]

/-! ## One operation -/

theorem push_cases {a : UInt32} (hstep : t.step (.push a) = some t') :
    a ≤ t.counter.capacity ∧
    t' = { t with counter := { t.counter with sz := t.counter.sz + a }, pushed := t.pushed + a.toNat } := by
  simp only [step, CircularCounter.push] at hstep
  by_cases hroom : a ≤ t.counter.capacity
  · simp only [hroom, if_true, Option.map_some, Option.some.injEq] at hstep
    exact ⟨hroom, hstep.symm⟩
  · simp [hroom] at hstep

theorem pop_cases {a : UInt32} (hstep : t.step (.pop a) = some t') :
    a ≤ t.counter.size ∧
    t' = { t with counter := { base := CircularCounter.fwd N t.counter.base a, sz := t.counter.sz - 1 },
                  popped := t.popped + a.toNat } := by
  simp only [step, CircularCounter.pop] at hstep
  by_cases henough : a ≤ t.counter.size
  · simp only [henough, if_true, Option.map_some, Option.some.injEq] at hstep
    exact ⟨henough, hstep.symm⟩
  · simp [henough] at hstep

theorem Counted.push {a : UInt32} (h : t.Counted) (hstep : t.step (.push a) = some t') :
    t'.Counted ∧ (t'.Unwrapped ↔ t.Allowed (.push a)) := by
  obtain ⟨hroom, rfl⟩ := push_cases hstep
  have hbound : t.counter.sz.toNat ≤ N.toNat := UInt32.le_iff_toNat_le.mp h.bound
  have hword : N.toNat < 2 ^ 32 := N.toNat_lt
  have hcapacity : a.toNat ≤ N.toNat - t.counter.sz.toNat := by
    have hsub : (N - t.counter.sz).toNat = N.toNat - t.counter.sz.toNat := UInt32.toNat_sub_of_le _ _ h.bound
    rw [← hsub]
    exact UInt32.le_iff_toNat_le.mp hroom
  have hsz : (t.counter.sz + a).toNat = t.counter.sz.toNat + a.toNat := by
    rw [UInt32.toNat_add, Nat.mod_eq_of_lt (by omega)]
  have hsize : t.counter.sz.toNat + t.popped = t.pushed := h.size
  refine ⟨⟨h.base, ?_, ?_, h.tail⟩, ?_⟩
  · show t.counter.sz + a ≤ N
    rw [UInt32.le_iff_toNat_le, hsz]
    omega
  · show (t.counter.sz + a).toNat + t.popped = t.pushed + a.toNat
    omega
  · show t.counter.base.toNat + (t.counter.sz + a).toNat < 2 ^ 32 ↔
      t.counter.base.toNat + t.counter.sz.toNat + a.toNat < 2 ^ 32
    rw [hsz, Nat.add_assoc]

/-- A single pop takes the base one on and the size one down. -/
theorem Counted.pop_one (h : t.Counted) (hstep : t.step (.pop 1) = some t') :
    t'.Counted ∧ (t.Unwrapped → t'.Unwrapped) := by
  obtain ⟨henough, rfl⟩ := pop_cases hstep
  have hbase : t.counter.base.toNat < N.toNat := UInt32.lt_iff_toNat_lt.mp h.base
  have hbound : t.counter.sz.toNat ≤ N.toNat := UInt32.le_iff_toNat_le.mp h.bound
  have hword : N.toNat < 2 ^ 32 := N.toNat_lt
  have hone : 1 ≤ t.counter.sz.toNat := UInt32.le_iff_toNat_le.mp henough
  have hfwd := CircularCounter.fwd_one_toNat h.base
  have hsz : (t.counter.sz - 1).toNat = t.counter.sz.toNat - 1 := UInt32.toNat_sub_of_le _ _ henough
  have hsize : t.counter.sz.toNat + t.popped = t.pushed := h.size
  have htail : t.counter.base.toNat = t.popped % N.toNat := h.tail
  refine ⟨⟨?_, ?_, ?_, ?_⟩, ?_⟩
  · show CircularCounter.fwd N t.counter.base 1 < N
    rw [UInt32.lt_iff_toNat_lt, hfwd]
    exact Nat.mod_lt _ (by omega)
  · show t.counter.sz - 1 ≤ N
    rw [UInt32.le_iff_toNat_le, hsz]
    omega
  · show (t.counter.sz - 1).toNat + (t.popped + 1) = t.pushed
    omega
  · show (CircularCounter.fwd N t.counter.base 1).toNat = (t.popped + 1) % N.toNat
    rw [hfwd, htail, Nat.mod_add_mod]
  · intro hsum
    have hle : (t.counter.base.toNat + 1) % N.toNat ≤ t.counter.base.toNat + 1 := Nat.mod_le _ _
    unfold Unwrapped at hsum ⊢
    rw [hfwd, hsz]
    omega

/-- Any other pop makes the size wrong: it takes one off, be it from zero. -/
theorem Counted.pop_other {a : UInt32} (h : t.Counted) (hstep : t.step (.pop a) = some t') (hne : a ≠ 1) :
    ¬ t'.Counted := by
  intro h'
  obtain ⟨henough, rfl⟩ := pop_cases hstep
  have hsize : t.counter.sz.toNat + t.popped = t.pushed := h.size
  have hsize' : (t.counter.sz - 1).toNat + (t.popped + a.toNat) = t.pushed := h'.size
  have hle : a.toNat ≤ t.counter.sz.toNat := UInt32.le_iff_toNat_le.mp henough
  have hone : a.toNat ≠ 1 := fun heq => hne (UInt32.toNat_inj.mp heq)
  have hword : t.counter.sz.toNat < 2 ^ 32 := t.counter.sz.toNat_lt
  rw [UInt32.toNat_sub, UInt32.toNat_one] at hsize'
  omega

/-- An operation leaves everything exact where it is allowed, and there alone. -/
theorem step_exact_iff {op : CounterOp} (hstep : t.step op = some t') (h : t.Exact) : t'.Exact ↔ t.Allowed op := by
  cases op with
  | push a =>
    obtain ⟨hcounted, hsum⟩ := h.toCounted.push hstep
    exact hcounted.exact_iff.trans hsum
  | pop a =>
    constructor
    · intro h'
      by_contra hne
      exact h.toCounted.pop_other hstep hne h'.toCounted
    · intro hone
      obtain rfl : a = 1 := hone
      obtain ⟨hcounted, hsum⟩ := h.toCounted.pop_one hstep
      exact hcounted.exact_iff.mpr (hsum (h.toCounted.exact_iff.mp h))

/-! ## Histories -/

theorem exact_start (hN : 0 < N) : Exact ({} : Tally N) where
  base := hN
  bound := UInt32.zero_le
  size := rfl
  tail := (Nat.zero_mod _).symm
  head := by
    rw [CircularCounter.head, UInt32.toNat_mod]
    rfl

/-- **The totals.** The counter is what the totals say, throughout a history, exactly when every pop takes one and
    every push leaves `tail() + size()` a word. -/
theorem totals_exact_iff (hN : 0 < N) (ops : List CounterOp) :
    PartialRun.Always step Exact ({} : Tally N) ops ↔
      PartialRun.Along step (fun t op _ => t.Allowed op) ({} : Tally N) ops := by
  refine PartialRun.always_iff_along (I := fun _ => True) (fun _ _ _ _ _ _ _ => trivial) ?_ trivial (exact_start hN)
  intro t op t' hstep _ h
  exact step_exact_iff hstep h

/-- Two are pushed and popped one by one. -/
theorem totals_exact_of_single_pops :
    PartialRun.Always step Exact ({} : Tally 4) [.push 2, .pop 1, .pop 1] := by
  apply (totals_exact_iff (by decide) _).mpr
  intro t ht
  obtain ⟨-, rfl⟩ := push_cases ht
  have hword : 0 + 0 + 2 < 2 ^ 32 := by decide
  refine ⟨hword, ?_⟩
  intro t ht
  obtain ⟨-, rfl⟩ := pop_cases ht
  refine ⟨rfl, ?_⟩
  intro t ht
  exact ⟨rfl, trivial⟩

/-- Two are pushed and popped at once, and one is left. -/
theorem a_pop_of_two_leaves_one : ¬ PartialRun.Always step Exact ({} : Tally 4) [.push 2, .pop 2] := by
  intro h
  have hlast := (h.2 _ rfl).2 _ rfl
  have hsize : 1 + 2 = 2 := hlast.size
  omega

/-- Up to 2^31 slots no sum wraps. -/
theorem step_exact_iff_one (hN : N.toNat ≤ 2 ^ 31) {op : CounterOp} (hstep : t.step op = some t') (h : t.Exact) :
    t'.Exact ↔ ∀ a, op = .pop a → a = 1 := by
  rw [step_exact_iff hstep h]
  cases op with
  | push a =>
    obtain ⟨hcounted, hsum⟩ := h.toCounted.push hstep
    have hbase : t'.counter.base.toNat < N.toNat := UInt32.lt_iff_toNat_lt.mp hcounted.base
    have hbound : t'.counter.sz.toNat ≤ N.toNat := UInt32.le_iff_toNat_le.mp hcounted.bound
    have hunwrapped : t'.Unwrapped := by
      unfold Unwrapped
      omega
    exact iff_of_true (hsum.mp hunwrapped) fun _ hop => by cases hop
  | pop a =>
    constructor
    · intro hone b hop
      cases hop
      exact hone
    · intro hone
      exact hone a rfl

/-- So up to 2^31 slots the totals are right exactly for single pops. -/
theorem totals_exact_iff_ones (hpos : 0 < N) (hN : N.toNat ≤ 2 ^ 31) (ops : List CounterOp) :
    PartialRun.Always step Exact ({} : Tally N) ops ↔
      PartialRun.Along step (fun _ op _ => ∀ a, op = .pop a → a = 1) ({} : Tally N) ops := by
  refine PartialRun.always_iff_along (I := fun _ => True) (fun _ _ _ _ _ _ _ => trivial) ?_ trivial (exact_start hpos)
  intro t op t' hstep _ h
  exact step_exact_iff_one hN hstep h

end Tally

/-! ## The counter in natural numbers -/

namespace CircularCounter

variable {N : UInt32} {c : CircularCounter N}

inductive Single where
  | push (a : UInt32)
  | popOne
  deriving DecidableEq, Repr

/-- A call, and what the counter says behind it: `tail()`, `head()`, `size()` and `capacity()`. -/
def single (c : CircularCounter N) : Single → Option (CircularCounter N × (Nat × Nat × Nat × Nat))
  | .push a => (c.push a).map fun c => (c, c.tail.toNat, c.head.toNat, c.size.toNat, c.capacity.toNat)
  | .popOne => (c.pop 1).map fun c => (c, c.tail.toNat, c.head.toNat, c.size.toNat, c.capacity.toNat)

end CircularCounter

end Esp32Cam.Ut.Cont

namespace Esp32Cam.Ut.CircularCounter

open Esp32Cam.Lib

variable {N : UInt32} {n : Nat}

def single (c : CircularCounter n) :
    Cont.CircularCounter.Single → Option (CircularCounter n × (Nat × Nat × Nat × Nat))
  | .push a => (c.push a.toNat).map fun c => (c, c.tail, c.head, c.size, c.capacity)
  | .popOne => (c.pop 1).map fun c => (c, c.tail, c.head, c.size, c.capacity)

/-- The words of a counter whose positions and sizes are in range, as numbers. -/
structure Words (w : Cont.CircularCounter N) (c : CircularCounter N.toNat) : Prop where
  base : w.base.toNat = c.base
  sz : w.sz.toNat = c.sz
  base_lt : c.base < N.toNat
  sz_le : c.sz ≤ N.toNat

variable {w : Cont.CircularCounter N} {c : CircularCounter N.toNat}

theorem Words.answers (h : Words w c) (hN : N.toNat ≤ 2 ^ 31) :
    (w.tail.toNat, w.head.toNat, w.size.toNat, w.capacity.toNat) = (c.tail, c.head, c.size, c.capacity) := by
  have hbase := h.base
  have hsz := h.sz
  have hbase_lt := h.base_lt
  have hsz_le := h.sz_le
  have hbound : w.sz ≤ N := UInt32.le_iff_toNat_le.mpr (by omega)
  have hhead : w.head.toNat = c.head := by
    have hsum : w.base.toNat + w.sz.toNat < 2 ^ 32 := by omega
    rw [Cont.CircularCounter.head, UInt32.toNat_mod, UInt32.toNat_add, Nat.mod_eq_of_lt hsum, hbase, hsz]
    rfl
  have hcapacity : w.capacity.toNat = c.capacity := by
    rw [Cont.CircularCounter.capacity, UInt32.toNat_sub_of_le _ _ hbound, hsz]
    rfl
  rw [hhead, hcapacity]
  exact congrArg₂ Prod.mk hbase (congrArg (Prod.mk _) (congrArg (·, _) hsz))

theorem Words.push (h : Words w c) (a : UInt32) : Option.Rel Words (w.push a) (c.push a.toNat) := by
  have hsz := h.sz
  have hsz_le := h.sz_le
  have hword : N.toNat < 2 ^ 32 := N.toNat_lt
  have hbound : w.sz ≤ N := UInt32.le_iff_toNat_le.mpr (by omega)
  have hroom : a ≤ w.capacity ↔ a.toNat ≤ c.capacity := by
    rw [UInt32.le_iff_toNat_le, Cont.CircularCounter.capacity, UInt32.toNat_sub_of_le _ _ hbound, hsz]
    rfl
  unfold Cont.CircularCounter.push CircularCounter.push
  by_cases hfits : a.toNat ≤ c.capacity
  · rw [if_pos hfits, if_pos (hroom.mpr hfits)]
    have hle : c.sz + a.toNat ≤ N.toNat := by
      unfold capacity at hfits
      omega
    refine .some ⟨h.base, ?_, h.base_lt, hle⟩
    show (w.sz + a).toNat = c.sz + a.toNat
    rw [UInt32.toNat_add, hsz, Nat.mod_eq_of_lt (by omega)]
  · rw [if_neg hfits, if_neg fun hfits' => hfits (hroom.mp hfits')]
    exact .none

theorem Words.pop_one (h : Words w c) : Option.Rel Words (w.pop 1) (c.pop 1) := by
  have hbase := h.base
  have hsz := h.sz
  have hbase_lt := h.base_lt
  have hsz_le := h.sz_le
  have hword : N.toNat < 2 ^ 32 := N.toNat_lt
  have henough : 1 ≤ w.size ↔ 1 ≤ c.size := by
    rw [UInt32.le_iff_toNat_le, UInt32.toNat_one, Cont.CircularCounter.size, hsz]
    rfl
  unfold Cont.CircularCounter.pop CircularCounter.pop
  by_cases hany : 1 ≤ c.size
  · rw [if_pos hany, if_pos (henough.mpr hany)]
    refine .some ⟨?_, ?_, Nat.mod_lt _ (by omega), ?_⟩
    · show (Cont.CircularCounter.fwd N w.base 1).toNat = (c.base + 1) % N.toNat
      rw [Cont.CircularCounter.fwd_one_toNat (UInt32.lt_iff_toNat_lt.mpr (by omega)), hbase]
    · have hsub : (w.sz - 1).toNat = w.sz.toNat - 1 := UInt32.toNat_sub_of_le _ _ (henough.mpr hany)
      exact hsub.trans (congrArg (· - 1) hsz)
    · show c.sz - 1 ≤ N.toNat
      omega
  · rw [if_neg hany, if_neg fun hany' => hany (henough.mp hany')]
    exact .none

/-- The words of a counter of up to 2^31 slots are the numbers it is modelled with. -/
theorem counter_refines (hN : N.toNat ≤ 2 ^ 31) : Refines (Words (N := N)) Cont.CircularCounter.single single := by
  intro w c call h
  cases call with
  | push a => exact rel_map (h.push a) fun _ _ h => ⟨h, h.answers hN⟩
  | popOne => exact rel_map h.pop_one fun _ _ h => ⟨h, h.answers hN⟩

end Esp32Cam.Ut.CircularCounter
