/-
  Esp32Cam.Lib.ShiftRegister — a feedback shift register that takes symbols at its low end.

  One `shift` moves the register down a place and adds the polynomial for the bit that falls
  out. It is linear in exclusive or (`shift_xor`), and with a polynomial of full degree it
  loses nothing (`shift_injective`). A symbol of `k` bits is added to the low end, and `k`
  shifts follow.

  Symbols that fit into the register together are taken as one number: taking them is adding
  that number and shifting it out (`absorb_packed`). So a burst no longer than the register
  never cancels, whatever stands before it and behind it (`absorb_ne_of_burst`).
-/

import Mathlib.Algebra.Group.Nat.Defs
import Mathlib.Logic.Function.Iterate
import Mathlib.Order.Basic

namespace Esp32Cam.Lib.ShiftRegister

variable {w k : Nat} (poly : BitVec w)

def shift (x : BitVec w) : BitVec w := if x.getLsbD 0 then x >>> 1 ^^^ poly else x >>> 1

/-! ## One shift -/

theorem xor_xor_cancel (a b p : BitVec w) : a ^^^ p ^^^ (b ^^^ p) = a ^^^ b := by
  rw [BitVec.xor_comm b p, BitVec.xor_assoc a p, ← BitVec.xor_assoc p p b, BitVec.xor_self, BitVec.zero_xor]

theorem shift_xor (a b : BitVec w) : shift poly (a ^^^ b) = shift poly a ^^^ shift poly b := by
  unfold shift
  rw [BitVec.getLsbD_xor, BitVec.ushiftRight_xor_distrib]
  cases a.getLsbD 0 with
  | false =>
    cases b.getLsbD 0 with
    | false => rfl
    | true => exact BitVec.xor_assoc _ _ _
  | true =>
    cases b.getLsbD 0 with
    | false =>
      change a >>> 1 ^^^ b >>> 1 ^^^ poly = a >>> 1 ^^^ poly ^^^ b >>> 1
      rw [BitVec.xor_assoc, BitVec.xor_comm (b >>> 1), BitVec.xor_assoc]
    | true => exact (xor_xor_cancel _ _ poly).symm

/-- With the highest bit in the polynomial only the empty register is shifted into the empty one. -/
theorem eq_zero_of_shift (hpoly : poly.getLsbD (w - 1) = true) {x : BitVec w} (h : shift poly x = 0#w) : x = 0#w := by
  unfold shift at h
  split at h
  · -- what is moved down leaves the highest place free, which the polynomial takes
    have hbit := congrArg (BitVec.getLsbD · (w - 1)) h
    have hlt := BitVec.lt_of_getLsbD hpoly
    simp only [BitVec.getLsbD_xor, BitVec.getLsbD_ushiftRight, hpoly, BitVec.getLsbD_zero] at hbit
    rw [BitVec.getLsbD_of_ge x (1 + (w - 1)) (by omega)] at hbit
    cases hbit
  · rename_i hlow
    apply BitVec.eq_of_getLsbD_eq
    intro i hi
    rw [BitVec.getLsbD_zero]
    cases i with
    | zero => exact Bool.not_eq_true _ ▸ hlow
    | succ i =>
      have hbit := congrArg (BitVec.getLsbD · i) h
      simp only [BitVec.getLsbD_ushiftRight, BitVec.getLsbD_zero] at hbit
      rwa [Nat.add_comm] at hbit

theorem shift_injective (hpoly : poly.getLsbD (w - 1) = true) : Function.Injective (shift poly) := by
  intro a b h
  have hzero : shift poly (a ^^^ b) = 0#w := by rw [shift_xor, h, BitVec.xor_self]
  exact BitVec.xor_eq_zero_iff.mp (eq_zero_of_shift poly hpoly hzero)

/-! ## Shifts in turn -/

theorem iterate_xor (n : Nat) (a b : BitVec w) :
    (shift poly)^[n] (a ^^^ b) = (shift poly)^[n] a ^^^ (shift poly)^[n] b := by
  induction n generalizing a b with
  | zero => rfl
  | succ n ih => rw [Function.iterate_succ_apply, shift_xor, ih, Function.iterate_succ_apply, Function.iterate_succ_apply]

theorem shift_shiftLeft {y : BitVec w} {n : Nat} (h : y.toNat * 2 ^ (n + 1) < 2 ^ w) :
    shift poly (y <<< (n + 1)) = y <<< n := by
  have hlow : (y <<< (n + 1)).getLsbD 0 = false := by
    rw [BitVec.getLsbD_shiftLeft]
    simp
  have hn : y.toNat * 2 ^ n < 2 ^ w :=
    Nat.lt_of_le_of_lt (Nat.mul_le_mul_left _ (Nat.pow_le_pow_right (by decide) (Nat.le_succ n))) h
  rw [shift, hlow, if_neg Bool.false_ne_true]
  apply BitVec.eq_of_toNat_eq
  rw [BitVec.toNat_ushiftRight, BitVec.toNat_shiftLeft, BitVec.toNat_shiftLeft, Nat.shiftLeft_eq, Nat.shiftLeft_eq,
    Nat.mod_eq_of_lt h, Nat.mod_eq_of_lt hn, Nat.shiftRight_eq_div_pow, Nat.pow_succ, ← Nat.mul_assoc, Nat.pow_one,
    Nat.mul_div_cancel _ (by decide)]

/-- What stands above the places that are shifted out is only moved down. -/
theorem iterate_shiftLeft {y : BitVec w} {n : Nat} (h : y.toNat * 2 ^ n < 2 ^ w) : (shift poly)^[n] (y <<< n) = y := by
  induction n with
  | zero => exact BitVec.shiftLeft_zero y
  | succ n ih =>
    have hn : y.toNat * 2 ^ n < 2 ^ w :=
      Nat.lt_of_le_of_lt (Nat.mul_le_mul_left _ (Nat.pow_le_pow_right (by decide) (Nat.le_succ n))) h
    rw [Function.iterate_succ_apply, shift_shiftLeft poly h, ih hn]

/-- The lowest `k` places, and what is above them. -/
theorem low_xor_high (x : BitVec w) (k : Nat) : (x.setWidth k).setWidth w ^^^ x >>> k <<< k = x := by
  apply BitVec.eq_of_getLsbD_eq
  intro i hi
  rw [BitVec.getLsbD_xor, BitVec.getLsbD_setWidth, BitVec.getLsbD_setWidth, BitVec.getLsbD_shiftLeft,
    BitVec.getLsbD_ushiftRight]
  by_cases h : i < k
  · simp [hi, h]
  · have hle : k ≤ i := Nat.le_of_not_lt h
    simp [hi, h, Nat.add_sub_cancel' hle]

theorem ushiftRight_fits (x : BitVec w) (k : Nat) : (x >>> k).toNat * 2 ^ k < 2 ^ w := by
  rw [BitVec.toNat_ushiftRight, Nat.shiftRight_eq_div_pow]
  exact Nat.lt_of_le_of_lt (Nat.div_mul_le_self _ _) x.isLt

/-- `k` shifts: those of the lowest `k` places, and the rest moved down. -/
theorem iterate_split (x : BitVec w) (k : Nat) :
    (shift poly)^[k] x = (shift poly)^[k] ((x.setWidth k).setWidth w) ^^^ x >>> k := by
  have h := iterate_xor poly k ((x.setWidth k).setWidth w) (x >>> k <<< k)
  rwa [low_xor_high, iterate_shiftLeft poly (ushiftRight_fits x k)] at h

/-! ## Symbols -/

def absorb (c : BitVec w) (s : BitVec k) : BitVec w := (shift poly)^[k] (c ^^^ s.setWidth w)

def absorbAll (c : BitVec w) (ss : List (BitVec k)) : BitVec w := ss.foldl (absorb poly) c

/-- Symbols as one number, the first one lowest. -/
def packed : List (BitVec k) → BitVec w
  | [] => 0#w
  | s :: ss => s.setWidth w ^^^ packed ss <<< k

theorem absorbAll_append (c : BitVec w) (ss ts : List (BitVec k)) :
    absorbAll poly c (ss ++ ts) = absorbAll poly (absorbAll poly c ss) ts :=
  List.foldl_append

/-- Symbols after each other from one state on lead to different ones only from different states. -/
theorem absorb_injective (hpoly : poly.getLsbD (w - 1) = true) (s : BitVec k) : Function.Injective (absorb poly · s) := by
  intro c c' h
  exact (BitVec.xor_left_inj _).mp ((shift_injective poly hpoly).iterate k h)

theorem absorbAll_injective (hpoly : poly.getLsbD (w - 1) = true) (ss : List (BitVec k)) :
    Function.Injective (absorbAll poly · ss) := by
  induction ss with
  | nil => exact Function.injective_id
  | cons s ss ih =>
    intro c c' h
    exact absorb_injective poly hpoly s (ih h)

/-! ## Symbols that fit into the register together -/

theorem length_mul_le {s : BitVec k} {ss : List (BitVec k)} (h : (s :: ss).length * k ≤ w) :
    k ≤ w ∧ ss.length * k + k ≤ w := by
  rw [List.length_cons, Nat.add_mul, Nat.one_mul] at h
  exact ⟨Nat.le_trans (Nat.le_add_left k _) h, h⟩

theorem packed_lt {ss : List (BitVec k)} (h : ss.length * k ≤ w) : (packed ss : BitVec w).toNat < 2 ^ (ss.length * k) := by
  induction ss with
  | nil =>
    rw [packed, BitVec.toNat_ofNat, Nat.zero_mod]
    exact Nat.two_pow_pos _
  | cons s ss ih =>
    have hfits := length_mul_le h
    have hrest := ih (Nat.le_trans (Nat.le_add_right _ k) hfits.2)
    have hlength : (s :: ss).length * k = ss.length * k + k := Nat.succ_mul _ _
    rw [hlength, packed, BitVec.toNat_xor]
    refine Nat.xor_lt_two_pow ?_ ?_
    · rw [BitVec.toNat_setWidth]
      calc s.toNat % 2 ^ w ≤ s.toNat := Nat.mod_le _ _
        _ < 2 ^ k := s.isLt
        _ ≤ 2 ^ (ss.length * k + k) := Nat.pow_le_pow_right (by decide) (Nat.le_add_left k _)
    · rw [BitVec.toNat_shiftLeft, Nat.shiftLeft_eq]
      calc (packed ss : BitVec w).toNat * 2 ^ k % 2 ^ w ≤ (packed ss : BitVec w).toNat * 2 ^ k := Nat.mod_le _ _
        _ < 2 ^ (ss.length * k) * 2 ^ k := Nat.mul_lt_mul_of_pos_right hrest (Nat.two_pow_pos k)
        _ = 2 ^ (ss.length * k + k) := (Nat.pow_add _ _ _).symm

/-- The symbols behind the first one still fit when they are moved up to make room for it. -/
theorem packed_fits {s : BitVec k} {ss : List (BitVec k)} (h : (s :: ss).length * k ≤ w) :
    (packed ss : BitVec w).toNat * 2 ^ k < 2 ^ w := by
  have hfits := (length_mul_le h).2
  calc (packed ss : BitVec w).toNat * 2 ^ k < 2 ^ (ss.length * k) * 2 ^ k :=
        Nat.mul_lt_mul_of_pos_right (packed_lt (Nat.le_trans (Nat.le_add_right _ k) hfits)) (Nat.two_pow_pos k)
    _ = 2 ^ (ss.length * k + k) := (Nat.pow_add _ _ _).symm
    _ ≤ 2 ^ w := Nat.pow_le_pow_right (by decide) hfits

theorem absorb_packed {ss : List (BitVec k)} (h : ss.length * k ≤ w) (c : BitVec w) :
    absorbAll poly c ss = (shift poly)^[ss.length * k] (c ^^^ packed ss) := by
  induction ss generalizing c with
  | nil =>
    rw [packed, BitVec.xor_zero, List.length_nil, Nat.zero_mul]
    rfl
  | cons s ss ih =>
    have hfits := length_mul_le h
    have hlength : (s :: ss).length * k = ss.length * k + k := Nat.succ_mul _ _
    calc absorbAll poly c (s :: ss) = absorbAll poly (absorb poly c s) ss := rfl
      _ = (shift poly)^[ss.length * k] (absorb poly c s ^^^ packed ss) :=
        ih (Nat.le_trans (Nat.le_add_right _ k) hfits.2) _
      _ = (shift poly)^[ss.length * k] ((shift poly)^[k] (c ^^^ s.setWidth w) ^^^ (shift poly)^[k] (packed ss <<< k)) := by
        rw [iterate_shiftLeft poly (packed_fits h)]
        rfl
      _ = (shift poly)^[(s :: ss).length * k] (c ^^^ packed (s :: ss)) := by
        rw [← iterate_xor, ← Function.iterate_add_apply, hlength, packed, BitVec.xor_assoc]

theorem packed_low (h : k ≤ w) (s : BitVec k) (ss : List (BitVec k)) : (packed (s :: ss) : BitVec w).setWidth k = s := by
  apply BitVec.eq_of_getLsbD_eq
  intro i hi
  rw [packed, BitVec.getLsbD_setWidth, BitVec.getLsbD_xor, BitVec.getLsbD_setWidth, BitVec.getLsbD_shiftLeft]
  simp [hi, Nat.lt_of_lt_of_le hi h]

theorem packed_high {s : BitVec k} {ss : List (BitVec k)} (h : (s :: ss).length * k ≤ w) :
    (packed (s :: ss) : BitVec w) >>> k = packed ss := by
  have hup := packed_fits h
  have hfirst : (s.setWidth w).toNat / 2 ^ k = 0 := by
    rw [BitVec.toNat_setWidth]
    exact Nat.div_eq_of_lt (Nat.lt_of_le_of_lt (Nat.mod_le _ _) s.isLt)
  apply BitVec.eq_of_toNat_eq
  rw [packed, BitVec.ushiftRight_xor_distrib, BitVec.toNat_xor, BitVec.toNat_ushiftRight, BitVec.toNat_ushiftRight,
    Nat.shiftRight_eq_div_pow, Nat.shiftRight_eq_div_pow, hfirst, BitVec.toNat_shiftLeft, Nat.shiftLeft_eq,
    Nat.mod_eq_of_lt hup, Nat.mul_div_cancel _ (Nat.two_pow_pos k), Nat.zero_xor]

theorem packed_injective {ss ts : List (BitVec k)} (hlength : ss.length = ts.length) (h : ss.length * k ≤ w)
    (hpacked : (packed ss : BitVec w) = packed ts) : ss = ts := by
  induction ss generalizing ts with
  | nil => exact (List.eq_nil_of_length_eq_zero hlength.symm).symm
  | cons s ss ih =>
    cases ts with
    | nil => cases hlength
    | cons t ts =>
      have hlength' : ss.length = ts.length := Nat.succ.inj hlength
      have hfits := length_mul_le h
      have ht : (t :: ts).length * k ≤ w := hlength ▸ h
      have hfirst : s = t := by rw [← packed_low hfits.1 s ss, hpacked, packed_low hfits.1]
      have hrest : (packed ss : BitVec w) = packed ts := by rw [← packed_high h, hpacked, packed_high ht]
      rw [hfirst, ih hlength' (Nat.le_trans (Nat.le_add_right _ k) hfits.2) hrest]

/-- A burst no longer than the register never cancels. -/
theorem absorb_ne_of_burst (hpoly : poly.getLsbD (w - 1) = true) {us vs : List (BitVec k)} (hlength : us.length = vs.length)
    (hfits : us.length * k ≤ w) (hne : us ≠ vs) (c : BitVec w) (before behind : List (BitVec k)) :
    absorbAll poly c (before ++ us ++ behind) ≠ absorbAll poly c (before ++ vs ++ behind) := by
  intro h
  rw [absorbAll_append, absorbAll_append poly c (before ++ vs)] at h
  have h := absorbAll_injective poly hpoly behind h
  -- both strings stand before one register, the one that the symbols before them leave
  have hfits' : vs.length * k ≤ w := hlength ▸ hfits
  rw [absorbAll_append, absorbAll_append, absorb_packed poly hfits (absorbAll poly c before),
    absorb_packed poly hfits' (absorbAll poly c before), hlength] at h
  have h := (shift_injective poly hpoly).iterate _ h
  exact hne (packed_injective hlength hfits ((BitVec.xor_right_inj _).mp h))

end Esp32Cam.Lib.ShiftRegister
