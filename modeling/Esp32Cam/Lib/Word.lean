/-
  Esp32Cam.Lib.Word — 32-bit words as numbers.

  Unsigned words are naturals below `2 ^ 32`, signed ones integers in
  `[-2 ^ 31, 2 ^ 31)`; a cast takes the residue (`u32`, `uint32`, `int32`). `le32` is
  the little-endian byte string of a word, and two words of one string are one word
  (`le32_inj`). `ofBytes` reads a string in either order: the word whose string reads as
  `n` is the one that the string of `n` reads as (`ofBytes_le32_eq_iff`).
-/

import Mathlib

namespace Esp32Cam.Lib

def u32 (n : Nat) : Nat := n % 4294967296

def uint32 (n : Int) : Nat := (n % 4294967296).toNat

def int32 (n : Int) : Int := if uint32 n < 2147483648 then (uint32 n : Int) else (uint32 n : Int) - 4294967296

def u32Sub (a b : Nat) : Nat := uint32 ((a : Int) - b)

theorem u32_of_lt {n : Nat} (h : n < 2 ^ 32) : u32 n = n := by unfold u32; omega
theorem uint32_of_lt {n : Nat} (h : n < 2 ^ 32) : uint32 (n : Int) = n := by unfold uint32; omega
theorem int32_of_lt {n : Nat} (h : n < 2 ^ 31) : int32 (n : Int) = n := by unfold int32 uint32; split <;> omega

theorem uint32_int32 (n : Int) : uint32 (int32 n) = uint32 n := by unfold int32 uint32; split <;> omega

theorem uint32_int32_add (a b : Int) : uint32 (int32 a + b) = uint32 (a + b) := by unfold int32 uint32; split <;> omega

theorem uint32_lt (n : Int) : uint32 n < 2 ^ 32 := by unfold uint32; omega

theorem u32Sub_lt (a b : Nat) : u32Sub a b < 2 ^ 32 := by unfold u32Sub uint32; omega

theorem u32Sub_u32 {a b c : Nat} (h : a = b + c) (hb : b < 2 ^ 32) : u32Sub (u32 a) c = b := by
  subst h; unfold u32Sub uint32 u32; omega

def le32 (n : Nat) : List UInt8 :=
  [UInt8.ofNat n, UInt8.ofNat (n / 2 ^ 8), UInt8.ofNat (n / 2 ^ 16), UInt8.ofNat (n / 2 ^ 24)]

theorem ofNat_inj_mod {a b : Nat} (h : UInt8.ofNat a = UInt8.ofNat b) : a % 256 = b % 256 := by
  simpa using congrArg UInt8.toNat h

theorem le32_inj {a b : Nat} (ha : a < 2 ^ 32) (hb : b < 2 ^ 32) (h : le32 a = le32 b) : a = b := by
  simp only [le32, List.cons.injEq, and_true] at h
  obtain ⟨h0, h1, h2, h3⟩ := h
  have e0 := ofNat_inj_mod h0
  have e1 := ofNat_inj_mod h1
  have e2 := ofNat_inj_mod h2
  have e3 := ofNat_inj_mod h3
  omega

/-- The number that the bytes read as, the least significant one first or last. -/
def ofBytes (littleEndian : Bool) (bytes : List UInt8) : Nat :=
  Nat.ofDigits 256 ((if littleEndian then bytes else bytes.reverse).map UInt8.toNat)

theorem ofBytes_le32 {n : Nat} (h : n < 2 ^ 32) : ofBytes true (le32 n) = n := by
  simp [ofBytes, le32, Nat.ofDigits]
  omega

theorem ofBytes_inj {xs ys : List UInt8} (hlength : xs.length = ys.length) (h : ofBytes true xs = ofBytes true ys) :
    xs = ys := by
  have hdigits : ∀ zs : List UInt8, ∀ d ∈ zs.map UInt8.toNat, d < 256 := by
    intro zs d hd
    obtain ⟨z, -, rfl⟩ := List.mem_map.mp hd
    exact z.toNat_lt
  have hmap : xs.map UInt8.toNat = ys.map UInt8.toNat :=
    Nat.ofDigits_inj_of_len_eq (by decide) (by simpa using hlength) (hdigits xs) (hdigits ys) h
  exact List.map_injective_iff.mpr (fun a b => UInt8.toNat_inj.mp) hmap

/-- Reading in an order is its own inverse. -/
theorem ofBytes_le32_eq_iff (littleEndian : Bool) {v n : Nat} (hv : v < 2 ^ 32) (hn : n < 2 ^ 32) :
    ofBytes littleEndian (le32 v) = n ↔ v = ofBytes littleEndian (le32 n) := by
  cases littleEndian with
  | true => rw [ofBytes_le32 hv, ofBytes_le32 hn]
  | false =>
    have hreverse : ∀ m, ofBytes false (le32 m) = ofBytes true (le32 m).reverse := fun m => rfl
    rw [hreverse, hreverse]
    constructor
    · intro h
      rw [← ofBytes_le32 hn] at h
      have hbytes : (le32 v).reverse = le32 n := ofBytes_inj rfl h
      rw [← hbytes, List.reverse_reverse, ofBytes_le32 hv]
    · intro h
      rw [← ofBytes_le32 hv] at h
      have hbytes : le32 v = (le32 n).reverse := ofBytes_inj rfl h
      rw [hbytes, List.reverse_reverse, ofBytes_le32 hn]

end Esp32Cam.Lib
