/-
  Esp32Cam.Ut.InstanceRegistry — a vector of pointers to instances, ordered by what they point to.

  `add` inserts a pointer that is not there at its lower bound, `remove` erases it where
  `std::find` comes to it; erasing where the search has come to the end is undefined
  (`none`).
-/

import Esp32Cam.Lib.SortedVector

namespace Esp32Cam.Ut.Comm.OrderedInstanceRegistry

open Esp32Cam.Lib

variable {α κ : Type} [DecidableEq α] [LinearOrder κ]

/-- `key` is what the instances are compared by. -/
def add (key : α → κ) (instances : List α) (aInstance : α) : List α :=
  if aInstance ∈ instances then instances
  else
    let it := SortedVector.bisect key instances (key aInstance)
    instances.take it ++ aInstance :: instances.drop it

def remove (instances : List α) (aInstance : α) : Option (List α) :=
  let it := instances.idxOf aInstance
  if it < instances.length then some (instances.eraseIdx it) else none

variable {key : α → κ} {xs ys : List α} {a b : α}

/-- In an ordered vector the halving finds the place that keeps it ordered. -/
theorem add_eq (h : SortedVector.Ordered key xs) (hnew : a ∉ xs) : add key xs a = SortedVector.insert key xs a := by
  rw [add, if_neg hnew, h.bisect_eq_lowerBound]
  rfl

theorem add_ordered (h : SortedVector.Ordered key xs) (a : α) : SortedVector.Ordered key (add key xs a) := by
  by_cases ha : a ∈ xs
  · rwa [add, if_pos ha]
  · rw [add_eq h ha]
    exact h.insert

theorem mem_add (h : SortedVector.Ordered key xs) : b ∈ add key xs a ↔ b = a ∨ b ∈ xs := by
  by_cases ha : a ∈ xs
  · rw [add, if_pos ha]
    constructor
    · exact Or.inr
    · intro hb
      rcases hb with rfl | hb
      · exact ha
      · exact hb
  · rw [add_eq h ha, SortedVector.mem_insert]

theorem add_nodup (h : SortedVector.Ordered key xs) (hnodup : xs.Nodup) (a : α) : (add key xs a).Nodup := by
  by_cases ha : a ∈ xs
  · rwa [add, if_pos ha]
  · rw [add_eq h ha]
    exact (SortedVector.insert_perm key xs a).nodup_iff.mpr (List.nodup_cons.mpr ⟨ha, hnodup⟩)

omit [LinearOrder κ]

/-- What is registered can be removed. -/
theorem remove_eq (h : a ∈ xs) : remove xs a = some (xs.erase a) := by
  rw [remove, if_pos (List.idxOf_lt_length_iff.mpr h), List.eraseIdx_idxOf_eq_erase]

end Esp32Cam.Ut.Comm.OrderedInstanceRegistry
