/-
  Esp32Cam.Lib.CString — C strings in fields of a fixed size.

  `strcpy m p s` is the memory `m` with `s` and the NUL behind it stored from `p` on.
  `readField m p n` is what a field of `n` cells holds as a string: up to its first NUL
  where its last cell is one, and all of it otherwise.

  - `readField_of_holds`: a field that holds a string and NULs behind it is read as the string.
  - `readField_of_cut`: a field that begins with a NUL is not read as a string that has characters.
  - `strcpy_keeps`: a field that ends before the copy, or begins behind it, is read as before.
-/

import Mathlib.Data.List.TakeWhile
import Esp32Cam.Lib.Memory

namespace Esp32Cam.Lib

/-- What `strcpy` stores. -/
def withNul (s : List UInt8) : List UInt8 := s ++ [0]

def strcpy (m : Nat → UInt8) (p : Nat) (s : List UInt8) : Nat → UInt8 := overlay m p (withNul s)

def readField (m : Nat → UInt8) (p n : Nat) : List UInt8 :=
  if m (p + (n - 1)) = 0 then (readMem m p n).takeWhile (· ≠ 0) else readMem m p n

@[simp] theorem length_withNul (s : List UInt8) : (withNul s).length = s.length + 1 := List.length_append

/-- The field from `p` on holds the string, and NULs up to its end. -/
def Holds (m : Nat → UInt8) (p n : Nat) (s : List UInt8) : Prop :=
  s.length ≤ n ∧ readMem m p n = s ++ List.replicate (n - s.length) 0

variable {m : Nat → UInt8} {p n : Nat} {s : List UInt8}

theorem takeWhile_append_nuls (h : 0 ∉ s) (k : Nat) : (s ++ List.replicate k 0).takeWhile (· ≠ 0) = s := by
  have hs : s.takeWhile (· ≠ 0) = s := by
    apply List.takeWhile_eq_self_iff.mpr
    intro b hb
    rw [decide_eq_true_eq]
    intro h
    rcases h with rfl
    exact h hb
  rw [List.takeWhile_append_of_pos (fun b hb => List.takeWhile_eq_self_iff.mp hs b hb)]
  cases k with
  | zero => simp
  | succ k => simp [List.replicate_succ]

theorem readField_of_holds (h : 0 ∉ s) (hholds : Holds m p n s) : readField m p n = s := by
  unfold readField
  rw [hholds.2]
  split
  · exact takeWhile_append_nuls h _
  · rename_i hlast
    have hfull : n - s.length = 0 := by
      rcases Nat.eq_zero_or_pos (n - s.length) with hfull | hroom
      · exact hfull
      refine absurd ?_ hlast
      have hlt : n - 1 < n := by omega
      have hcell := getElem?_readMem (m := m) (a := p) hlt
      rw [hholds.2, List.getElem?_append_right (by omega), List.getElem?_replicate_of_lt (by omega)] at hcell
      exact (Option.some_inj.mp hcell).symm
    rw [hfull, List.replicate_zero, List.append_nil]

/-- The string's first character is lost, and with it the string. -/
theorem readField_of_cut (hn : 0 < n) (hcut : m p = 0) (hs : s ≠ []) (h : 0 ∉ s) : readField m p n ≠ s := by
  obtain ⟨k, rfl⟩ : ∃ k, n = k + 1 := ⟨n - 1, by omega⟩
  have hread : readMem m p (k + 1) = 0 :: (List.range k).map fun i => m (p + (i + 1)) := by
    simp [readMem, List.range_succ_eq_map, hcut, Function.comp_def]
  unfold readField
  rw [hread]
  split
  · intro heq
    exact hs heq.symm
  · intro h
    rcases h with rfl
    exact h List.mem_cons_self

/-- A field the copy does not touch is read as before. -/
theorem strcpy_keeps {q : Nat} (h : p + n ≤ q ∨ q + (s.length + 1) ≤ p) (hn : 0 < n) :
    readField (strcpy m q s) p n = readField m p n := by
  have hcell : ∀ i, p ≤ i → i < p + n → strcpy m q s i = m i := by
    intro i hp hi
    rcases h with hbefore | hbehind
    · exact overlay_before (by omega)
    · exact overlay_behind (by rw [length_withNul]; omega)
  unfold readField
  rw [hcell _ (by omega) (by omega), readMem_congr hcell]

@[simp] theorem strcpy_nul (m : Nat → UInt8) (p : Nat) (s : List UInt8) : strcpy m p s (p + s.length) = 0 := by
  have hnul := @overlay_at _ m p s.length (withNul s) (by simp)
  refine Eq.trans hnul ?_
  simp [withNul]

/-- A NUL outside of the string stays one. -/
theorem strcpy_keeps_nul {i : Nat} (h : i < p ∨ p + s.length ≤ i) (hm : m i = 0) : strcpy m p s i = 0 := by
  rcases h with hbefore | hbehind
  · exact (overlay_before hbefore).trans hm
  · rcases Nat.eq_or_lt_of_le hbehind with rfl | hlt
    · exact strcpy_nul m p s
    · refine (overlay_behind ?_).trans hm
      rw [length_withNul]
      omega

theorem readMem_nuls (h : ∀ i, p ≤ i → i < p + n → m i = 0) : readMem m p n = List.replicate n 0 := by
  apply List.eq_replicate_iff.mpr
  refine ⟨length_readMem _ _ _, fun b hb => ?_⟩
  obtain ⟨i, hi, rfl⟩ := List.mem_map.mp hb
  have hn := List.mem_range.mp hi
  exact h _ (by omega) (by omega)

/-- A field of NULs is the empty string. -/
theorem holds_nil (h : ∀ i, p ≤ i → i < p + n → m i = 0) : Holds m p n [] := ⟨Nat.zero_le n, readMem_nuls h⟩

/-- A string copied into a field of NULs, as far as it fits without its own. -/
theorem holds_strcpy (hs : s.length ≤ n) (hm : ∀ i, p + s.length ≤ i → i < p + n → m i = 0) : Holds (strcpy m p s) p n s := by
  refine ⟨hs, ?_⟩
  obtain ⟨k, rfl⟩ : ∃ k, n = s.length + k := ⟨n - s.length, by omega⟩
  have hfront : readMem (strcpy m p s) p s.length = s := by
    have htake := @readMem_overlay_take _ m p (withNul s) s.length (by rw [length_withNul]; omega)
    rw [withNul, List.take_left] at htake
    exact htake
  have hback : readMem (strcpy m p s) (p + s.length) k = List.replicate k 0 := by
    apply readMem_nuls
    intro i hi hk
    exact strcpy_keeps_nul (Or.inr hi) (hm i hi (by omega))
  rw [readMem_add, hfront, hback, Nat.add_sub_cancel_left]

end Esp32Cam.Lib
