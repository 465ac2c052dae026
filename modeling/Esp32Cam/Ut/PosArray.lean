/-
  Esp32Cam.Ut.PosArray — an array with an insert position, as a bounded list.

  The stored elements are those before the insert position. `reset()` takes elements off the
  end as long as the room left differs from the number of elements, so it stops at half the
  capacity: from there on up where the capacity is even (`reset_returns_iff`), and otherwise
  it takes from the empty array, which throws.

  `bounded_list_iff`: a history keeps to the list, and every call returns, exactly when no
  `reset()` is called, or nothing fits in.
-/

import Esp32Cam.Lib.Iteration
import Esp32Cam.Lib.PartialRun

namespace Esp32Cam.Ut.Cont

open Esp32Cam.Lib Esp32Cam.Lib.Iteration

variable {T : Type} {N : Nat}

structure PosArray (T : Type) (N : Nat) where
  /-- The base: all `N` elements. -/
  elems : Vector T N
  /-- Insert position -/
  pos : Nat
  deriving DecidableEq

namespace PosArray

/-- The constructor: the elements of the base are value-initialised. -/
def start (init : T) : PosArray T N := { elems := Vector.replicate N init, pos := 0 }

def size (a : PosArray T N) : Nat := a.pos

def capacity (a : PosArray T N) : Nat := N - a.pos

/-- The element that has been inserted, which is returned; `at` throws where there is no place. -/
def emplaceBack (a : PosArray T N) (x : T) : Option (T × PosArray T N) :=
  if h : a.pos < N then some (x, { elems := a.elems.set a.pos x, pos := a.pos + 1 }) else none

def pushBack (a : PosArray T N) (aInstance : T) : Option (T × PosArray T N) := a.emplaceBack aInstance

section
-- what is left in the place of an element that was moved from and destroyed
variable (gone : T → T)

/-- In front of the first element the index wraps, and `at` throws. -/
def popBack (a : PosArray T N) : Option (T × PosArray T N) :=
  match a.pos with
  | 0 => none
  | last + 1 => a.elems[last]?.map fun ret => (ret, { elems := a.elems.setIfInBounds last (gone ret), pos := last })

/-- The assertion holds the new size against the capacity of the base. -/
def setSize (a : PosArray T N) (aSize : Nat) : Option (PosArray T N) :=
  if aSize ≤ N then some { a with pos := aSize } else none

theorem popBack_pos {a b : PosArray T N} {x : T} (h : a.popBack gone = some (x, b)) : a.pos = b.pos + 1 := by
  unfold popBack at h
  cases hpos : a.pos with
  | zero => simp [hpos] at h
  | succ last =>
    simp only [hpos, Option.map_eq_some_iff] at h
    obtain ⟨ret, -, heq⟩ := h
    cases heq
    rfl

def reset (a : PosArray T N) : Option (PosArray T N) :=
  if a.capacity ≠ a.size then
    match _h : a.popBack gone with
    | some (_, b) => reset b
    | none => none
  else some a
termination_by a.pos
decreasing_by
  rw [popBack_pos gone _h]
  exact Nat.lt_succ_self _

end

/-! ## Iterating -/

/-- `for (auto it = begin(); it != end(); ++it)`; the pointers are indices into the base. -/
def iterate (a : PosArray T N) (turns : Nat) : Option (List T) := visits (· + 1) (a.elems[·]?) a.pos turns 0

/-- A reverse iterator is at the element before its pointer. -/
def derefReverse (a : PosArray T N) : Nat → Option T
  | 0 => none
  | p + 1 => a.elems[p]?

/-- The same from `rbegin()`, which is at the insert position, to the `rend()` of the base. -/
def iterateReverse (a : PosArray T N) (turns : Nat) : Option (List T) := visits (· - 1) a.derefReverse 0 turns a.pos

/-- The elements before the insert position. -/
def stored (a : PosArray T N) : List T := a.elems.toList.take a.pos

variable {a b : PosArray T N} {x : T} {gone : T → T}

theorem length_stored (h : a.pos ≤ N) : a.stored.length = a.pos := by
  rw [stored, List.length_take, Vector.length_toList, Nat.min_eq_left h]

theorem getElem?_stored {i : Nat} (hi : i < a.pos) : a.stored[i]? = a.elems[i]? := by
  rw [stored, List.getElem?_take_of_lt hi, Vector.getElem?_toList]

/-- The loop comes by the stored elements. -/
theorem passes (h : a.pos ≤ N) : Passes (· + 1) (a.elems[·]?) a.pos 0 a.stored := by
  have hlength := length_stored h
  apply passes_of_places _ _ _ _ (fun i => i)
  · intro i _
    rfl
  · intro i hi
    exact (getElem?_stored (by omega)).symm
  · intro i hi
    omega
  · exact hlength

theorem passes_reverse (h : a.pos ≤ N) : Passes (· - 1) a.derefReverse 0 a.pos a.stored.reverse := by
  have hlength : a.stored.reverse.length = a.pos := by rw [List.length_reverse, length_stored h]
  have hplaces := passes_of_places (· - 1) a.derefReverse 0 a.stored.reverse
    (fun i => a.pos - i)
  rw [Nat.sub_zero] at hplaces
  apply hplaces
  · intro i _
    exact Nat.sub_sub _ _ _
  · intro i hi
    have hsucc : a.pos - i = a.pos - 1 - i + 1 := by omega
    rw [List.length_reverse] at hi
    rw [List.getElem?_reverse hi, length_stored h, getElem?_stored (by omega), hsucc]
    rfl
  · intro i hi
    omega
  · rw [hlength, Nat.sub_self]

/-! ## The operations -/

theorem emplaceBack_stored (h : a.pos < N) (x : T) :
    ∃ b, a.emplaceBack x = some (x, b) ∧ b.pos = a.pos + 1 ∧ b.stored = a.stored ++ [x] := by
  refine ⟨{ elems := a.elems.set a.pos x, pos := a.pos + 1 }, ?_, rfl, ?_⟩
  · rw [emplaceBack, dif_pos h]
  · have hlt : a.pos < (a.elems.toList.set a.pos x).length := by
      rw [List.length_set, Vector.length_toList]
      exact h
    unfold stored
    rw [Vector.toList_set, List.take_succ_eq_append_getElem hlt, List.take_set_of_le (Nat.le_refl _),
      List.getElem_set_self]

/-- The last element comes off. -/
theorem popBack_stored (gone : T → T) (hpos : a.pos ≠ 0) (h : a.pos ≤ N) :
    ∃ x b, a.popBack gone = some (x, b) ∧ a.pos = b.pos + 1 ∧ a.stored = b.stored ++ [x] := by
  obtain ⟨last, hlast⟩ := Nat.exists_eq_succ_of_ne_zero hpos
  have hlt : last < N := by omega
  refine ⟨a.elems[last], { elems := a.elems.setIfInBounds last (gone a.elems[last]), pos := last }, ?_, hlast, ?_⟩
  · simp [popBack, hlast, hlt]
  · have hlt' : last < a.elems.toList.length := by rwa [Vector.length_toList]
    unfold stored
    rw [hlast, List.take_succ_eq_append_getElem hlt', Vector.toList_setIfInBounds,
      List.take_set_of_le (Nat.le_refl _), Vector.getElem_toList]

theorem setSize_stored {k : Nat} (hk : k ≤ N) :
    ∃ b, a.setSize k = some b ∧ b.pos = k ∧ b.stored.length = k ∧
      (b.stored <+: a.stored ∨ a.stored <+: b.stored) := by
  refine ⟨{ a with pos := k }, if_pos hk, rfl, length_stored hk, ?_⟩
  rcases Nat.le_total k a.pos with hle | hle
  · exact Or.inl (List.take_prefix_take_left hle)
  · exact Or.inr (List.take_prefix_take_left hle)

/-! ## Resetting -/

theorem reset_stops (h : a.capacity = a.size) : a.reset gone = some a := by
  rw [reset, if_neg (not_not_intro h)]

theorem reset_goes_on (hne : a.capacity ≠ a.size) (hpop : a.popBack gone = some (x, b)) :
    a.reset gone = b.reset gone := by
  rw [reset, if_pos hne]
  split
  · rename_i x' b' hpop'
    rw [hpop] at hpop'
    cases hpop'
    rfl
  · rename_i hpop'
    rw [hpop] at hpop'
    cases hpop'

theorem reset_throws (hne : a.capacity ≠ a.size) (hpop : a.popBack gone = none) : a.reset gone = none := by
  rw [reset, if_pos hne]
  split
  · rename_i x' b' hpop'
    rw [hpop] at hpop'
    cases hpop'
  · rfl

/-- It comes down to half of the capacity, if that is on the way down, and throws otherwise. -/
theorem reset_cases (gone : T → T) (h : a.pos ≤ N) :
    (∃ b, a.reset gone = some b ∧ 2 * b.pos = N ∧ b.pos ≤ a.pos) ∨
      (a.reset gone = none ∧ ∀ k, 2 * k = N → a.pos < k) := by
  induction hpos : a.pos generalizing a with
  | zero =>
    by_cases heq : a.capacity = a.size
    · refine Or.inl ⟨a, reset_stops heq, ?_, Nat.le_of_eq hpos⟩
      unfold capacity size at heq
      omega
    · refine Or.inr ⟨reset_throws heq (by rw [popBack, hpos]), ?_⟩
      intro k hk
      unfold capacity size at heq
      omega
  | succ last ih =>
    by_cases heq : a.capacity = a.size
    · refine Or.inl ⟨a, reset_stops heq, ?_, Nat.le_of_eq hpos⟩
      unfold capacity size at heq
      omega
    · obtain ⟨x, b, hpop, hb, -⟩ := popBack_stored gone (by omega) h
      rw [reset_goes_on heq hpop]
      rcases ih (a := b) (by omega) (by omega) with ⟨c, hreset, hhalf, hle⟩ | ⟨hreset, hno⟩
      · exact Or.inl ⟨c, hreset, hhalf, by omega⟩
      · refine Or.inr ⟨hreset, ?_⟩
        intro k hk
        have hlt := hno k hk
        unfold capacity size at heq
        omega

/-- `reset()` returns from a capacity that is even, and at least half of it taken. -/
theorem reset_returns_iff (h : a.pos ≤ N) : (∃ b, a.reset gone = some b) ↔ ∃ k, 2 * k = N ∧ k ≤ a.pos := by
  rcases reset_cases gone h with ⟨b, hreset, hhalf, hle⟩ | ⟨hreset, hno⟩
  · exact iff_of_true ⟨b, hreset⟩ ⟨b.pos, hhalf, hle⟩
  · rw [hreset]
    apply iff_of_false
    · intro ⟨b, hb⟩
      cases hb
    · intro ⟨k, hk, hle⟩
      exact absurd (hno k hk) (Nat.not_lt_of_le hle)

/-- It leaves an empty array only where nothing fits in. -/
theorem reset_empties_iff (gone : T → T) (h : a.pos ≤ N) : (∃ b, a.reset gone = some b ∧ b.size = 0) ↔ N = 0 := by
  rcases reset_cases gone h with ⟨b, hreset, hhalf, -⟩ | ⟨hreset, hno⟩
  · rw [hreset]
    constructor
    · intro ⟨c, hc, hzero⟩
      cases hc
      unfold size at hzero
      omega
    · intro hN
      refine ⟨b, rfl, ?_⟩
      unfold size
      omega
  · rw [hreset]
    constructor
    · intro ⟨c, hc, _⟩
      cases hc
    · intro hN
      have hlt := hno 0 (by omega)
      exact absurd hlt (Nat.not_lt_zero _)

end PosArray

/-! ## Histories -/

inductive ArrayOp (T : Type) where
  | pushBack (aInstance : T)
  | emplaceBack (a : T)
  | popBack
  | setSize (aSize : Nat)
  | reset
  deriving DecidableEq, Repr

namespace PosArray

variable {a b : PosArray T N} {p p' : PosArray T N × Option T} {op : ArrayOp T}

def call (gone : T → T) (a : PosArray T N) : ArrayOp T → Option (PosArray T N × Option T)
  | .pushBack x => (a.pushBack x).map fun (x, a) => (a, some x)
  | .emplaceBack x => (a.emplaceBack x).map fun (x, a) => (a, some x)
  | .popBack => (a.popBack gone).map fun (x, a) => (a, some x)
  | .setSize k => (a.setSize k).map fun a => (a, none)
  | .reset => (a.reset gone).map fun a => (a, none)

/-- The state of a history: the array, and what the last operation returned. -/
def step (gone : T → T) (p : PosArray T N × Option T) (op : ArrayOp T) : Option (PosArray T N × Option T) :=
  p.1.call gone op

def Contract (p : PosArray T N × Option T) : ArrayOp T → Prop
  | .pushBack _ => p.1.size < N
  | .emplaceBack _ => p.1.size < N
  | .popBack => 0 < p.1.size
  | .setSize k => k ≤ N
  | .reset => True

instance (p : PosArray T N × Option T) (op : ArrayOp T) : Decidable (Contract p op) :=
  match op with
  | .pushBack _ => inferInstanceAs (Decidable (p.1.size < N))
  | .emplaceBack _ => inferInstanceAs (Decidable (p.1.size < N))
  | .popBack => inferInstanceAs (Decidable (0 < p.1.size))
  | .setSize k => inferInstanceAs (Decidable (k ≤ N))
  | .reset => inferInstanceAs (Decidable True)

/-- What an operation makes of a list. A new size cuts the list off, or takes in what is behind it. -/
def OnList (xs : List T) (op : ArrayOp T) (answer : Option T) (ys : List T) : Prop :=
  match op with
  | .pushBack x => answer = some x ∧ ys = xs ++ [x]
  | .emplaceBack x => answer = some x ∧ ys = xs ++ [x]
  | .popBack => ∃ x, answer = some x ∧ xs = ys ++ [x]
  | .setSize k => ys.length = k ∧ (ys <+: xs ∨ xs <+: ys)
  | .reset => ys = []

/-- The array has the size of the list, and is gone through in its order and in reverse. -/
structure IsList (a : PosArray T N) (xs : List T) : Prop where
  size : a.size = xs.length
  fits : a.size ≤ N
  forward : ∀ turns, xs.length < turns → a.iterate turns = some xs
  backward : ∀ turns, xs.length < turns → a.iterateReverse turns = some xs.reverse

def Bounded (p : PosArray T N × Option T) (op : ArrayOp T) (p' : PosArray T N × Option T) : Prop :=
  OnList p.1.stored op p'.2 p'.1.stored ∧ IsList p'.1 p'.1.stored

/-- No `reset()`, unless nothing fits in. -/
def NoReset (N : Nat) (op : ArrayOp T) : Prop := op = .reset → N = 0

theorem isList (h : a.pos ≤ N) : IsList a a.stored where
  size := (length_stored h).symm
  fits := h
  forward turns hturns := (passes h).visits_eq hturns
  backward turns hturns := (passes_reverse h).visits_eq (by rwa [List.length_reverse])

theorem start_fits (init : T) : (start init : PosArray T N).pos ≤ N := Nat.zero_le N

/-- Apart from `reset()`, what the callers may ask for is done to the list. -/
theorem step_on_list (gone : T → T) (h : p.1.pos ≤ N) (hcontract : Contract p op) (hne : op ≠ .reset) :
    ∃ p', step gone p op = some p' ∧ p'.1.pos ≤ N ∧ OnList p.1.stored op p'.2 p'.1.stored := by
  have hpushed : ∀ x, p.1.pos < N → ∃ p', (p.1.emplaceBack x).map (fun (x, a) => (a, some x)) = some p' ∧
      p'.1.pos ≤ N ∧ p'.2 = some x ∧ p'.1.stored = p.1.stored ++ [x] := by
    intro x hroom
    obtain ⟨b, hb, hpos, hstored⟩ := emplaceBack_stored hroom x
    refine ⟨(b, some x), by rw [hb, Option.map_some], ?_, rfl, hstored⟩
    show b.pos ≤ N
    omega
  cases op with
  | pushBack x => exact hpushed x hcontract
  | emplaceBack x => exact hpushed x hcontract
  | popBack =>
    have hany : p.1.pos ≠ 0 := Nat.ne_of_gt hcontract
    obtain ⟨x, b, hb, hpos, hstored⟩ := popBack_stored gone hany h
    refine ⟨(b, some x), ?_, ?_, x, rfl, hstored⟩
    · rw [step, call, hb, Option.map_some]
    · show b.pos ≤ N
      omega
  | setSize k =>
    obtain ⟨b, hb, hpos, hlength, hprefix⟩ := setSize_stored (a := p.1) hcontract
    refine ⟨(b, none), ?_, ?_, hlength, hprefix⟩
    · rw [step, call, hb, Option.map_some]
    · show b.pos ≤ N
      rw [hpos]
      exact hcontract
  | reset => exact absurd rfl hne

theorem step_reset : step gone p .reset = (p.1.reset gone).map fun a => (a, none) := rfl

/-- Every operation leaves the insert position in the array. -/
theorem step_fits (h : p.1.pos ≤ N) (hcontract : Contract p op) (hstep : step gone p op = some p') :
    p'.1.pos ≤ N := by
  by_cases hreset : op = .reset
  · subst hreset
    rw [step_reset] at hstep
    rcases reset_cases gone h with ⟨b, hb, -, hle⟩ | ⟨hb, -⟩
    · rw [hb, Option.map_some] at hstep
      obtain rfl := Option.some.inj hstep
      exact Nat.le_trans hle h
    · rw [hb, Option.map_none] at hstep
      cases hstep
  · obtain ⟨p'', hstep', hfits, -⟩ := step_on_list gone h hcontract hreset
    obtain rfl : p'' = p' := Option.some.inj (hstep'.symm.trans hstep)
    exact hfits

theorem stored_eq_nil_iff (h : a.pos ≤ N) : a.stored = [] ↔ a.size = 0 := by
  rw [← List.length_eq_zero_iff, length_stored h, size]

/-- What the callers may ask for is done to the list where it is allowed, and there alone. -/
theorem step_bounded_iff (h : p.1.pos ≤ N) (hcontract : Contract p op) :
    (∃ p', step gone p op = some p' ∧ Bounded p op p') ↔ NoReset N op := by
  by_cases hreset : op = .reset
  · subst hreset
    have hempties := reset_empties_iff gone h
    constructor
    · intro ⟨p', hstep, hnil, hlist⟩ _
      apply hempties.mp
      rw [step_reset] at hstep
      obtain ⟨b, hb, rfl⟩ := Option.map_eq_some_iff.mp hstep
      exact ⟨b, hb, (stored_eq_nil_iff hlist.fits).mp hnil⟩
    · intro hN
      obtain ⟨b, hb, hzero⟩ := hempties.mpr (hN rfl)
      have hfits : b.pos ≤ N := Nat.le_trans (Nat.le_of_eq hzero) (Nat.zero_le N)
      refine ⟨(b, none), ?_, (stored_eq_nil_iff hfits).mpr hzero, isList hfits⟩
      rw [step_reset, hb, Option.map_some]
  · obtain ⟨p', hstep, hfits, honlist⟩ := step_on_list gone h hcontract hreset
    exact iff_of_true ⟨p', hstep, honlist, isList hfits⟩ fun heq => absurd heq hreset

/-- Up to its first `reset()` a history does not end. -/
theorem allowed_noReset_iff {ops : List (ArrayOp T)} (h : p.1.pos ≤ N)
    (hcontract : PartialRun.Allowed (step gone) Contract p ops) :
    PartialRun.Allowed (step gone) (fun _ op => NoReset N op) p ops ↔ (.reset ∈ ops → N = 0) := by
  induction ops generalizing p with
  | nil => exact iff_of_true trivial fun hmem => absurd hmem List.not_mem_nil
  | cons op ops ih =>
    rcases hcontract with ⟨hop, hops⟩
    have hnext : ∀ p', step gone p op = some p' →
        (PartialRun.Allowed (step gone) (fun _ op => NoReset N op) p' ops ↔ (.reset ∈ ops → N = 0)) := by
      intro p' hstep
      exact ih (step_fits h hop hstep) (hops p' hstep)
    constructor
    · intro ⟨hno, hrest⟩ hmem
      by_cases hreset : op = .reset
      · exact hno hreset
      · obtain ⟨p', hstep, -, -⟩ := step_on_list gone h hop hreset
        have hlater : .reset ∈ ops := by
          rcases List.mem_cons.mp hmem with heq | hmem
          · exact absurd heq.symm hreset
          · exact hmem
        exact (hnext p' hstep).mp (hrest p' hstep) hlater
    · intro hno
      refine ⟨fun hreset => hno (hreset ▸ List.mem_cons_self), ?_⟩
      intro p' hstep
      exact (hnext p' hstep).mpr fun hmem => hno (List.mem_cons_of_mem _ hmem)

/-- **A bounded list.** A history in which the callers keep to what they may ask for is one on a list,
    of which every call returns, exactly when there is no `reset()` in it, or nothing fits in. -/
theorem bounded_list_iff (gone : T → T) (init : T) (ops : List (ArrayOp T))
    (hcontract : PartialRun.Allowed (step gone) Contract ((start init : PosArray T N), none) ops) :
    PartialRun.Through (step gone) Bounded ((start init : PosArray T N), none) ops ↔ (.reset ∈ ops → N = 0) := by
  rw [← allowed_noReset_iff (start_fits init) hcontract]
  refine PartialRun.through_iff_allowed_under (I := fun p => p.1.pos ≤ N) ?_ ?_ (start_fits init) hcontract
  · intro p op p' hstep h hk _
    exact step_fits h hk hstep
  · intro p op h hk
    exact step_bounded_iff h hk

/-- An array of three is filled, cut down and taken from. -/
theorem bounded_list_of_no_reset :
    PartialRun.Through (step id) Bounded ((start 0 : PosArray Nat 3), none)
      [.pushBack 5, .emplaceBack 6, .pushBack 7, .setSize 2, .popBack] :=
  (bounded_list_iff id 0 _ (by decide)).mpr (by decide)

/-- A full array of two is left with one element. -/
theorem a_reset_leaves_one :
    PartialRun.Allowed (step id) Contract ((start 0 : PosArray Nat 2), none) [.pushBack 5, .pushBack 6, .reset] ∧
    ¬ PartialRun.Through (step id) Bounded ((start 0 : PosArray Nat 2), none) [.pushBack 5, .pushBack 6, .reset] := by
  constructor
  · refine ⟨by decide, ?_⟩
    intro p hp
    obtain rfl := Option.some.inj hp
    refine ⟨by decide, ?_⟩
    intro q _
    exact ⟨trivial, fun _ _ => trivial⟩
  · intro h
    obtain ⟨p, hp, -, q, hq, -, r, hr, hbounded, -⟩ := h
    obtain rfl := Option.some.inj hp
    obtain rfl := Option.some.inj hq
    have hN : 2 = 0 := (step_bounded_iff (by decide) (by decide)).mp ⟨r, hr, hbounded⟩ rfl
    cases hN

end PosArray

end Esp32Cam.Ut.Cont
