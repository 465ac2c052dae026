/-
  Esp32Cam.Lib.Iteration — the loop from one iterator to another.

  An iterator is moved on by `next`, and `read` is the element it is at, if there is one
  (`none`: there is nothing to read). `visits` are the elements a loop comes by, for a
  number of turns at most; it gives up where it reads what is not there, or is not at
  `last` by then.

  `Passes it xs`: the iterator is at the elements of `xs`, one after another, and at `last`
  behind them and not before. Such a loop comes by `xs` (`Passes.visits_eq`).
-/

namespace Esp32Cam.Lib.Iteration

variable {ι α : Type} {next : ι → ι} {read : ι → Option α} {last it : ι} {xs : List α}

def visits [DecidableEq ι] (next : ι → ι) (read : ι → Option α) (last : ι) : Nat → ι → Option (List α)
  | 0, _ => none
  | turns + 1, it =>
    if it = last then some []
    else (read it).bind fun x => (visits next read last turns (next it)).map (x :: ·)

def Passes (next : ι → ι) (read : ι → Option α) (last : ι) : ι → List α → Prop
  | it, [] => it = last
  | it, x :: xs => it ≠ last ∧ read it = some x ∧ Passes next read last (next it) xs

/-- One turn for each element, and one to see that there are no more. -/
theorem Passes.visits_eq [DecidableEq ι] (h : Passes next read last it xs) {turns : Nat} (hturns : xs.length < turns) :
    visits next read last turns it = some xs := by
  induction xs generalizing it turns with
  | nil =>
    cases turns with
    | zero => exact absurd hturns (Nat.not_lt_zero _)
    | succ turns =>
      have hlast : it = last := h
      rw [visits, if_pos hlast]
  | cons x xs ih =>
    cases turns with
    | zero => exact absurd hturns (Nat.not_lt_zero _)
    | succ turns =>
      obtain ⟨hne, hread, hrest⟩ := h
      have hvisits := ih hrest (Nat.lt_of_succ_lt_succ hturns)
      rw [visits, if_neg hne, hread, Option.bind_some, hvisits, Option.map_some]

/-- An iterator that is at `place i` after `i` moves. -/
theorem passes_of_places (next : ι → ι) (read : ι → Option α) (last : ι) (xs : List α) (place : Nat → ι)
    (hnext : ∀ i < xs.length, next (place i) = place (i + 1))
    (hread : ∀ i < xs.length, read (place i) = xs[i]?) (hne : ∀ i < xs.length, place i ≠ last)
    (hlast : place xs.length = last) : Passes next read last (place 0) xs := by
  induction xs generalizing place with
  | nil => exact hlast
  | cons x xs ih =>
    have hfirst : 0 < (x :: xs).length := Nat.succ_pos _
    refine ⟨hne 0 hfirst, hread 0 hfirst, ?_⟩
    rw [hnext 0 hfirst]
    apply ih (fun i => place (i + 1))
    · intro i hi
      exact hnext (i + 1) (Nat.succ_lt_succ hi)
    · intro i hi
      exact hread (i + 1) (Nat.succ_lt_succ hi)
    · intro i hi
      exact hne (i + 1) (Nat.succ_lt_succ hi)
    · exact hlast

end Esp32Cam.Lib.Iteration
