/-
  Esp32Cam.Lib.Agreement — a table that has to name what several stores hold.

  Each store `i` holds a set of names `f i`; the table is a set of pairs of a store and a
  name, and agrees with the stores when it is `keys f`. Where a step changes one store, or
  the table at one pair, whether they still agree is decided there: `keys_add`,
  `keys_add_both`, `keys_drop` and `keys_drop_both` are the four ways to change them.
-/

import Mathlib.Data.Set.Insert

namespace Esp32Cam.Lib.Agreement

variable {ι α : Type} {t t' : Set (ι × α)} {f f' : ι → Set α} {i : ι} {x : α} {d : Set α}

def keys (f : ι → Set α) : Set (ι × α) := { k | k.2 ∈ f k.1 }

@[simp] theorem mem_keys {f : ι → Set α} {i : ι} {x : α} : (i, x) ∈ keys f ↔ x ∈ f i := Iff.rfl

theorem keys_congr (h : ∀ i, f' i = f i) : keys f' = keys f := by rw [funext h]

/-- A store holds one more name: the table has to have named it before. -/
theorem keys_add (ht : t = keys f) (hi : ∀ y, y ∈ f' i ↔ y = x ∨ y ∈ f i) (hoff : ∀ j, j ≠ i → f' j = f j) :
    t = keys f' ↔ (i, x) ∈ t := by
  constructor
  · intro h
    rw [h, mem_keys, hi]
    exact Or.inl rfl
  · intro hx
    ext ⟨j, y⟩
    rw [ht] at hx ⊢
    rw [mem_keys] at hx ⊢
    rw [mem_keys]
    by_cases hj : j = i
    · subst hj
      rw [hi]
      constructor
      · exact Or.inr
      · intro h
        rcases h with rfl | hy
        · exact hx
        · exact hy
    · rw [hoff j hj]

/-- The store and the table take the name up together. -/
theorem keys_add_both (ht : t = keys f) (ht' : t' = insert (i, x) t) (hi : ∀ y, y ∈ f' i ↔ y = x ∨ y ∈ f i)
    (hoff : ∀ j, j ≠ i → f' j = f j) : t' = keys f' := by
  rw [ht', ht]
  ext ⟨j, y⟩
  rw [Set.mem_insert_iff, mem_keys, mem_keys, Prod.mk.injEq]
  by_cases hj : j = i
  · subst hj
    rw [hi]
    simp
  · rw [hoff j hj]
    simp [hj]

/-- A store gives names up: each of them has to be held otherwise. -/
theorem keys_drop (ht : t = keys f) (hi : f i = f' i ∪ d) (hoff : ∀ j, j ≠ i → f' j = f j) :
    t = keys f' ↔ d ⊆ f' i := by
  constructor
  · intro h y hy
    have hmem : (i, y) ∈ t := by
      rw [ht, mem_keys, hi]
      exact Or.inr hy
    rw [h] at hmem
    exact hmem
  · intro hd
    rw [ht]
    ext ⟨j, y⟩
    rw [mem_keys, mem_keys]
    by_cases hj : j = i
    · subst hj
      rw [hi, Set.union_eq_left.mpr hd]
    · rw [hoff j hj]

/-- A store gives a name up and the table drops it: it must not be held otherwise. -/
theorem keys_drop_both (ht : t = keys f) (ht' : t' = t \ {(i, x)}) (hd : d ⊆ {x}) (hi : f i = f' i ∪ d)
    (hoff : ∀ j, j ≠ i → f' j = f j) : t' = keys f' ↔ x ∉ f' i := by
  constructor
  · intro h hx
    have hmem : (i, x) ∈ t' := by
      rw [h]
      exact hx
    rw [ht'] at hmem
    exact hmem.2 rfl
  · intro hx
    rw [ht', ht]
    ext ⟨j, y⟩
    rw [mem_keys]
    constructor
    · intro h
      rcases h with ⟨hy, hne⟩
      rw [mem_keys] at hy
      by_cases hj : j = i
      · subst hj
        rw [hi] at hy
        rcases hy with hy | hy
        · exact hy
        · rw [hd hy] at hne
          exact absurd rfl hne
      · rw [hoff j hj]
        exact hy
    · intro hy
      by_cases hj : j = i
      · subst hj
        refine ⟨?_, ?_⟩
        · rw [mem_keys, hi]
          exact Or.inl hy
        · intro heq
          obtain ⟨-, rfl⟩ := Prod.mk.inj heq
          exact hx hy
      · rw [hoff j hj] at hy
        refine ⟨hy, ?_⟩
        intro heq
        exact hj (Prod.mk.inj heq).1

end Esp32Cam.Lib.Agreement
