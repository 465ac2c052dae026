/-
  Esp32Cam.Lib.SortedVector — a vector sorted by a key, searched by bisection.

  `lowerBound` is the index of the first element whose key is not less than the given
  one, `find` the element behind it where its key is the given one. Of a vector without
  two elements of one key (`Sorted`), `find` finds every key there is (`find_eq_none`),
  inserting at the lower bound or erasing an element keeps it sorted. In an `Ordered` one,
  keys may be there several times; inserting keeps it ordered (`Ordered.insert`), and
  halving it again and again comes to the lower bound (`Ordered.bisect_eq_lowerBound`).
-/

import Mathlib

namespace Esp32Cam.Lib.SortedVector

variable {α κ : Type} [LinearOrder κ] (key : α → κ)

def lowerBound (xs : List α) (k : κ) : Nat := (xs.takeWhile fun x => decide (key x < k)).length

def find (xs : List α) (k : κ) : Option Nat :=
  let i := lowerBound key xs k
  if (xs[i]?.map key) = some k then some i else none

def insert (xs : List α) (x : α) : List α :=
  let i := lowerBound key xs (key x)
  xs.take i ++ x :: xs.drop i

def Sorted (xs : List α) : Prop := xs.Pairwise fun x y => key x < key y

def Ordered (xs : List α) : Prop := xs.Pairwise fun x y => key x ≤ key y

variable {key} {xs : List α} {k : κ} {i : Nat} {x : α}

theorem split_at_lowerBound (key : α → κ) (xs : List α) (k : κ) : ∃ pre post, xs = pre ++ post ∧ pre.length = lowerBound key xs k ∧
    (∀ x ∈ pre, key x < k) ∧ ∀ y, post.head? = some y → k ≤ key y := by
  refine ⟨_, _, List.takeWhile_append_dropWhile.symm, rfl, fun x hx => ?_, fun y hy => ?_⟩
  · simpa using List.mem_takeWhile_imp hx
  · have := List.head?_dropWhile_not (fun x => decide (key x < k)) xs
    rw [hy] at this
    simpa using this

/-- Behind the lower bound of an ordered vector no key is less. -/
theorem Ordered.split (h : Ordered key xs) (k : κ) : ∃ pre post, xs = pre ++ post ∧ pre.length = lowerBound key xs k ∧
    (∀ x ∈ pre, key x < k) ∧ ∀ y ∈ post, k ≤ key y := by
  obtain ⟨pre, post, rfl, hlen, hpre, hhead⟩ := split_at_lowerBound key xs k
  refine ⟨pre, post, rfl, hlen, hpre, fun y hy => ?_⟩
  cases post with
  | nil => cases hy
  | cons z zs =>
    have hz : k ≤ key z := hhead z rfl
    rcases List.mem_cons.mp hy with rfl | hy
    · exact hz
    · have hpost := (List.pairwise_append.mp h).2.1
      exact hz.trans (List.rel_of_pairwise_cons hpost hy)

theorem Sorted.ordered (h : Sorted key xs) : Ordered key xs := h.imp fun hlt => hlt.le

theorem Sorted.split (h : Sorted key xs) (k : κ) : ∃ pre post, xs = pre ++ post ∧ pre.length = lowerBound key xs k ∧
    (∀ x ∈ pre, key x < k) ∧ ∀ y ∈ post, k ≤ key y := h.ordered.split k

theorem find_some (h : find key xs k = some i) : ∃ x, xs[i]? = some x ∧ key x = k := by
  unfold find at h
  dsimp only at h
  split at h
  · rename_i hk
    obtain rfl := Option.some_inj.mp h
    exact Option.map_eq_some_iff.mp hk
  · cases h

theorem find_eq_none (h : Sorted key xs) : find key xs k = none ↔ ∀ x ∈ xs, key x ≠ k := by
  obtain ⟨pre, post, hxs, hlen, hpre, hpost⟩ := h.split k
  have hget : xs[lowerBound key xs k]? = post.head? := by
    rw [← hlen, hxs, List.getElem?_append_right (Nat.le_refl _), Nat.sub_self, List.head?_eq_getElem?]
  unfold find
  simp only [hget, ite_eq_right_iff, reduceCtorEq, imp_false]
  rw [hxs]
  constructor
  · intro hne x hx
    rcases List.mem_append.mp hx with hx | hx
    · exact (hpre x hx).ne
    · cases post with
      | nil => cases hx
      | cons y ys =>
        have hky : k < key y := lt_of_le_of_ne (hpost y List.mem_cons_self) fun heq => hne (by simp [heq])
        rcases List.mem_cons.mp hx with rfl | hx
        · exact hky.ne'
        · subst hxs
          exact (hky.trans (List.rel_of_pairwise_cons (List.pairwise_append.mp h).2.1 hx)).ne'
  · intro hall heq
    obtain ⟨y, hy, hk⟩ := Option.map_eq_some_iff.mp heq
    exact hall y (List.mem_append_right _ (List.mem_of_mem_head? hy)) hk

/-- No two elements of one key. -/
theorem eq_of_key_eq (h : Sorted key xs) {y : α} (hx : x ∈ xs) (hy : y ∈ xs) (heq : key x = key y) : x = y := by
  have hnodup : (xs.map key).Nodup := List.pairwise_map.mpr (h.imp fun hlt => hlt.ne)
  exact List.inj_on_of_nodup_map hnodup hx hy heq

theorem mem_insert {y : α} : y ∈ insert key xs x ↔ y = x ∨ y ∈ xs := by
  conv => rhs; rw [← List.take_append_drop (lowerBound key xs (key x)) xs]
  simp only [insert, List.mem_append, List.mem_cons]
  exact or_left_comm

theorem insert_perm (key : α → κ) (xs : List α) (x : α) : (insert key xs x).Perm (x :: xs) := by
  have hmiddle := @List.perm_middle _ x (xs.take (lowerBound key xs (key x))) (xs.drop (lowerBound key xs (key x)))
  rwa [List.take_append_drop] at hmiddle

theorem insert_eq {pre post : List α} (hxs : xs = pre ++ post) (hlen : pre.length = lowerBound key xs (key x)) :
    insert key xs x = pre ++ x :: post := by
  unfold insert
  rw [← hlen, hxs]
  simp

theorem insert_sorted (h : Sorted key xs) (hnew : ∀ y ∈ xs, key y ≠ key x) : Sorted key (insert key xs x) := by
  obtain ⟨pre, post, hxs, hlen, hpre, hpost⟩ := h.split (key x)
  have hins : insert key xs x = pre ++ x :: post := insert_eq hxs hlen
  subst hxs
  obtain ⟨h₁, h₂, h₃⟩ := List.pairwise_append.mp h
  rw [Sorted, hins, List.pairwise_append]
  refine ⟨h₁, List.pairwise_cons.mpr ⟨fun y hy => ?_, h₂⟩, fun a ha b hb => ?_⟩
  · exact lt_of_le_of_ne (hpost y hy) (hnew y (List.mem_append_right _ hy)).symm
  · rcases List.mem_cons.mp hb with rfl | hb
    · exact hpre a ha
    · exact h₃ a ha b hb

/-- The new element comes before those of its key. -/
theorem Ordered.insert (h : Ordered key xs) : Ordered key (insert key xs x) := by
  obtain ⟨pre, post, hxs, hlen, hpre, hpost⟩ := h.split (key x)
  have hins : SortedVector.insert key xs x = pre ++ x :: post := insert_eq hxs hlen
  subst hxs
  obtain ⟨h₁, h₂, h₃⟩ := List.pairwise_append.mp h
  rw [Ordered, hins, List.pairwise_append]
  refine ⟨h₁, List.pairwise_cons.mpr ⟨hpost, h₂⟩, fun a ha b hb => ?_⟩
  rcases List.mem_cons.mp hb with rfl | hb
  · exact (hpre a ha).le
  · exact h₃ a ha b hb

theorem eraseIdx_sorted (h : Sorted key xs) (i : Nat) : Sorted key (xs.eraseIdx i) :=
  h.sublist (List.eraseIdx_sublist ..)

/-- The erased element is the one of its key. -/
theorem mem_eraseIdx (h : Sorted key xs) (hi : xs[i]? = some x) {y : α} :
    y ∈ xs.eraseIdx i ↔ y ∈ xs ∧ key y ≠ key x := by
  obtain ⟨hlt, rfl⟩ := List.getElem?_eq_some_iff.mp hi
  have hsplit : xs = xs.take i ++ xs[i] :: xs.drop (i + 1) := by
    rw [List.getElem_cons_drop, List.take_append_drop]
  have hsorted := h
  rw [Sorted, hsplit, List.pairwise_append] at hsorted
  obtain ⟨-, h₂, h₃⟩ := hsorted
  rw [List.eraseIdx_eq_take_drop_succ, List.mem_append]
  constructor
  · intro h
    rcases h with hy | hy
    · exact ⟨List.mem_of_mem_take hy, (h₃ y hy _ List.mem_cons_self).ne⟩
    · exact ⟨List.mem_of_mem_drop hy, (List.rel_of_pairwise_cons h₂ hy).ne'⟩
  · intro h
    rcases h with ⟨hy, hne⟩
    rw [hsplit, List.mem_append, List.mem_cons] at hy
    rcases hy with hy | rfl | hy
    · exact Or.inl hy
    · exact absurd rfl hne
    · exact Or.inr hy

/-! ## Halving -/

/-- The search of `std::lower_bound` among `count` elements from `first` on. -/
def bisectFrom (key : α → κ) (xs : List α) (k : κ) (first count : Nat) : Nat :=
  if count = 0 then first
  else
    let half := count / 2
    if xs[first + half]?.any (key · < k) then bisectFrom key xs k (first + half + 1) (count - (half + 1))
    else bisectFrom key xs k first half
termination_by count
decreasing_by all_goals omega

def bisect (key : α → κ) (xs : List α) (k : κ) : Nat := bisectFrom key xs k 0 xs.length

/-- The keys before the lower bound are less, and no others. -/
theorem Ordered.lt_iff_lt_lowerBound (h : Ordered key xs) (hi : i < xs.length) :
    xs[i]?.any (key · < k) = true ↔ i < lowerBound key xs k := by
  obtain ⟨pre, post, rfl, hlen, hpre, hpost⟩ := h.split k
  rw [← hlen]
  by_cases hlt : i < pre.length
  · have hless : key pre[i] < k := hpre _ (List.getElem_mem hlt)
    rw [List.getElem?_append_left hlt, List.getElem?_eq_getElem hlt]
    simpa [hlt] using hless
  · rw [List.length_append] at hi
    have hmem : i - pre.length < post.length := by omega
    have hle : k ≤ key post[i - pre.length] := hpost _ (List.getElem_mem hmem)
    rw [List.getElem?_append_right (Nat.le_of_not_lt hlt), List.getElem?_eq_getElem hmem]
    simpa [hlt] using hle

theorem bisectFrom_eq (h : Ordered key xs) {first count : Nat} (hfirst : first ≤ lowerBound key xs k)
    (hlast : lowerBound key xs k ≤ first + count) (hin : first + count ≤ xs.length) :
    bisectFrom key xs k first count = lowerBound key xs k := by
  induction count using Nat.strong_induction_on generalizing first with
  | _ count ih =>
    unfold bisectFrom
    by_cases hzero : count = 0
    · rw [if_pos hzero]
      omega
    · rw [if_neg hzero]
      have hhalf : count / 2 < count := by omega
      have hmid := h.lt_iff_lt_lowerBound (k := k) (i := first + count / 2) (by omega)
      dsimp only
      by_cases hless : xs[first + count / 2]?.any (key · < k) = true
      · have hlt := hmid.mp hless
        rw [if_pos hless]
        exact ih _ (by omega) (by omega) (by omega) (by omega)
      · have hge : ¬ first + count / 2 < lowerBound key xs k := fun hlt => hless (hmid.mpr hlt)
        rw [if_neg hless]
        exact ih _ hhalf hfirst (by omega) (by omega)

/-- On an ordered vector halving comes to the lower bound. -/
theorem Ordered.bisect_eq_lowerBound (h : Ordered key xs) (k : κ) : bisect key xs k = lowerBound key xs k := by
  have hlast : lowerBound key xs k ≤ 0 + xs.length := by
    rw [Nat.zero_add]
    exact (List.takeWhile_sublist _).length_le
  exact bisectFrom_eq h (Nat.zero_le _) hlast (by omega)

theorem bisect_eq_lowerBound (h : Sorted key xs) (k : κ) : bisect key xs k = lowerBound key xs k :=
  h.ordered.bisect_eq_lowerBound k

end Esp32Cam.Lib.SortedVector
