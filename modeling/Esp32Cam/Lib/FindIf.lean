/-
  Esp32Cam.Lib.FindIf — `std::find_if` with a predicate that may throw.

  The predicate answers `none` where it throws; so does the search when it comes to such
  an element before it has found one.
-/

import Mathlib.Data.List.Basic

namespace Esp32Cam.Lib

variable {α : Type} {p : α → Option Bool} {xs : List α} {i : Nat} {x : α}

/-- The index of the first element the predicate holds of; `some none` is the end. -/
def findIf (p : α → Option Bool) : List α → Option (Option Nat)
  | [] => some none
  | x :: xs =>
    match p x with
    | none => none
    | some true => some (some 0)
    | some false => (findIf p xs).map (Option.map (· + 1))

theorem findIf_none (h : findIf p xs = some none) : ∀ x ∈ xs, p x = some false := by
  induction xs with
  | nil => nofun
  | cons y ys ih =>
    unfold findIf at h
    split at h
    · cases h
    · cases h
    · rename_i hy
      obtain ⟨o, ho, hmap⟩ := Option.map_eq_some_iff.mp h
      rw [Option.map_eq_none_iff.mp hmap] at ho
      exact List.forall_mem_cons.mpr ⟨hy, ih ho⟩

theorem findIf_some (h : findIf p xs = some (some i)) :
    ∃ pre x post, xs = pre ++ x :: post ∧ pre.length = i ∧ p x = some true ∧ ∀ y ∈ pre, p y = some false := by
  induction xs generalizing i with
  | nil => cases h
  | cons y ys ih =>
    unfold findIf at h
    split at h
    · cases h
    · rename_i hy
      obtain rfl := Option.some_inj.mp (Option.some_inj.mp h)
      exact ⟨[], y, ys, rfl, rfl, hy, nofun⟩
    · rename_i hy
      obtain ⟨o, ho, hmap⟩ := Option.map_eq_some_iff.mp h
      obtain ⟨j, rfl, rfl⟩ := Option.map_eq_some_iff.mp hmap
      obtain ⟨pre, x, post, rfl, rfl, hx, hpre⟩ := ih ho
      exact ⟨y :: pre, x, post, rfl, rfl, hx, List.forall_mem_cons.mpr ⟨hy, hpre⟩⟩

/-- What is found is an element the predicate holds of. -/
theorem findIf_getElem (h : findIf p xs = some (some i)) : ∃ x, xs[i]? = some x ∧ p x = some true := by
  obtain ⟨pre, x, post, rfl, rfl, hx, -⟩ := findIf_some h
  exact ⟨x, by simp, hx⟩

end Esp32Cam.Lib
