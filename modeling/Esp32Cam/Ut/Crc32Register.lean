/-
  Esp32Cam.Ut.Crc32Register — what the checksum is: a shift register, in two implementations.

  `Crc32Constexpr.calculateCrc32` recurs over the positions of an array of any byte type,
  with a table of its own; an element takes part as a word, a negative one with its sign.
  Only the low byte of it reaches the table (`ByteType`). The reference is the register, bit
  by bit: the low bit falls out, and the polynomial is added for it. Either table holds
  eight shifts of each byte, and so a table step is eight shifts of the register
  (`tableStep_eq`), and both implementations agree with it (`crc32_implementations_agree`).

  The register takes four bytes at once without loss, so no change inside four bytes in a
  row goes unseen (`updateCrc32_ne_of_window`).
-/

import Esp32Cam.Lib.ShiftRegister
import Esp32Cam.Ut.Crc32

namespace Esp32Cam.Ut

open Esp32Cam.Lib

/-! ## The implementation for constant expressions -/

/-- An element type of one byte: the word an element becomes beside a word, and its byte in memory. -/
class ByteType (β : Type) where
  promote : β → UInt32
  toByte : β → UInt8
  low_byte : ∀ b : β, (promote b).toUInt8 = toByte b

/-- `unsigned char` -/
instance : ByteType UInt8 where
  promote b := b.toUInt32
  toByte b := b
  low_byte b := UInt8.toUInt8_toUInt32 b

/-- `signed char`; the promotion keeps the sign. -/
instance : ByteType Int8 where
  promote b := b.toInt32.toUInt32
  toByte b := b.toUInt8
  low_byte b := by
    apply UInt8.toBitVec_inj.mp
    apply BitVec.eq_of_getLsbD_eq
    intro i hi
    change ((b.toBitVec.signExtend 32).setWidth 8).getLsbD i = b.toBitVec.getLsbD i
    rw [BitVec.getLsbD_setWidth, BitVec.getLsbD_signExtend, if_pos hi, decide_eq_true hi,
      decide_eq_true (Nat.lt_trans hi (by decide : 8 < 32)), Bool.true_and, Bool.true_and]

/-- The mask keeps the low byte. -/
theorem and_ff (x : UInt32) : x &&& 0xFF = x.toUInt8.toUInt32 := by
  apply UInt32.toNat_inj.mp
  rw [UInt32.toNat_and, UInt8.toNat_toUInt32, UInt32.toNat_toUInt8]
  exact Nat.and_two_pow_sub_one_eq_mod x.toNat 8

namespace Crc32Constexpr

def kCrcTable : Array UInt32 := #[
    0x00000000, 0x77073096, 0xee0e612c, 0x990951ba, 0x076dc419, 0x706af48f, 0xe963a535, 0x9e6495a3,
    0x0edb8832, 0x79dcb8a4, 0xe0d5e91e, 0x97d2d988, 0x09b64c2b, 0x7eb17cbd, 0xe7b82d07, 0x90bf1d91,
    0x1db71064, 0x6ab020f2, 0xf3b97148, 0x84be41de, 0x1adad47d, 0x6ddde4eb, 0xf4d4b551, 0x83d385c7,
    0x136c9856, 0x646ba8c0, 0xfd62f97a, 0x8a65c9ec, 0x14015c4f, 0x63066cd9, 0xfa0f3d63, 0x8d080df5,
    0x3b6e20c8, 0x4c69105e, 0xd56041e4, 0xa2677172, 0x3c03e4d1, 0x4b04d447, 0xd20d85fd, 0xa50ab56b,
    0x35b5a8fa, 0x42b2986c, 0xdbbbc9d6, 0xacbcf940, 0x32d86ce3, 0x45df5c75, 0xdcd60dcf, 0xabd13d59,
    0x26d930ac, 0x51de003a, 0xc8d75180, 0xbfd06116, 0x21b4f4b5, 0x56b3c423, 0xcfba9599, 0xb8bda50f,
    0x2802b89e, 0x5f058808, 0xc60cd9b2, 0xb10be924, 0x2f6f7c87, 0x58684c11, 0xc1611dab, 0xb6662d3d,
    0x76dc4190, 0x01db7106, 0x98d220bc, 0xefd5102a, 0x71b18589, 0x06b6b51f, 0x9fbfe4a5, 0xe8b8d433,
    0x7807c9a2, 0x0f00f934, 0x9609a88e, 0xe10e9818, 0x7f6a0dbb, 0x086d3d2d, 0x91646c97, 0xe6635c01,
    0x6b6b51f4, 0x1c6c6162, 0x856530d8, 0xf262004e, 0x6c0695ed, 0x1b01a57b, 0x8208f4c1, 0xf50fc457,
    0x65b0d9c6, 0x12b7e950, 0x8bbeb8ea, 0xfcb9887c, 0x62dd1ddf, 0x15da2d49, 0x8cd37cf3, 0xfbd44c65,
    0x4db26158, 0x3ab551ce, 0xa3bc0074, 0xd4bb30e2, 0x4adfa541, 0x3dd895d7, 0xa4d1c46d, 0xd3d6f4fb,
    0x4369e96a, 0x346ed9fc, 0xad678846, 0xda60b8d0, 0x44042d73, 0x33031de5, 0xaa0a4c5f, 0xdd0d7cc9,
    0x5005713c, 0x270241aa, 0xbe0b1010, 0xc90c2086, 0x5768b525, 0x206f85b3, 0xb966d409, 0xce61e49f,
    0x5edef90e, 0x29d9c998, 0xb0d09822, 0xc7d7a8b4, 0x59b33d17, 0x2eb40d81, 0xb7bd5c3b, 0xc0ba6cad,
    0xedb88320, 0x9abfb3b6, 0x03b6e20c, 0x74b1d29a, 0xead54739, 0x9dd277af, 0x04db2615, 0x73dc1683,
    0xe3630b12, 0x94643b84, 0x0d6d6a3e, 0x7a6a5aa8, 0xe40ecf0b, 0x9309ff9d, 0x0a00ae27, 0x7d079eb1,
    0xf00f9344, 0x8708a3d2, 0x1e01f268, 0x6906c2fe, 0xf762575d, 0x806567cb, 0x196c3671, 0x6e6b06e7,
    0xfed41b76, 0x89d32be0, 0x10da7a5a, 0x67dd4acc, 0xf9b9df6f, 0x8ebeeff9, 0x17b7be43, 0x60b08ed5,
    0xd6d6a3e8, 0xa1d1937e, 0x38d8c2c4, 0x4fdff252, 0xd1bb67f1, 0xa6bc5767, 0x3fb506dd, 0x48b2364b,
    0xd80d2bda, 0xaf0a1b4c, 0x36034af6, 0x41047a60, 0xdf60efc3, 0xa867df55, 0x316e8eef, 0x4669be79,
    0xcb61b38c, 0xbc66831a, 0x256fd2a0, 0x5268e236, 0xcc0c7795, 0xbb0b4703, 0x220216b9, 0x5505262f,
    0xc5ba3bbe, 0xb2bd0b28, 0x2bb45a92, 0x5cb36a04, 0xc2d7ffa7, 0xb5d0cf31, 0x2cd99e8b, 0x5bdeae1d,
    0x9b64c2b0, 0xec63f226, 0x756aa39c, 0x026d930a, 0x9c0906a9, 0xeb0e363f, 0x72076785, 0x05005713,
    0x95bf4a82, 0xe2b87a14, 0x7bb12bae, 0x0cb61b38, 0x92d28e9b, 0xe5d5be0d, 0x7cdcefb7, 0x0bdbdf21,
    0x86d3d2d4, 0xf1d4e242, 0x68ddb3f8, 0x1fda836e, 0x81be16cd, 0xf6b9265b, 0x6fb077e1, 0x18b74777,
    0x88085ae6, 0xff0f6a70, 0x66063bca, 0x11010b5c, 0x8f659eff, 0xf862ae69, 0x616bffd3, 0x166ccf45,
    0xa00ae278, 0xd70dd2ee, 0x4e048354, 0x3903b3c2, 0xa7672661, 0xd06016f7, 0x4969474d, 0x3e6e77db,
    0xaed16a4a, 0xd9d65adc, 0x40df0b66, 0x37d83bf0, 0xa9bcae53, 0xdebb9ec5, 0x47b2cf7f, 0x30b5ffe9,
    0xbdbdf21c, 0xcabac28a, 0x53b39330, 0x24b4a3a6, 0xbad03605, 0xcdd70693, 0x54de5729, 0x23d967bf,
    0xb3667a2e, 0xc4614ab8, 0x5d681b02, 0x2a6f2b94, 0xb40bbe37, 0xc30c8ea1, 0x5a05df1b, 0x2d02ef8d]

/-- `none` is a position outside the array. -/
def calculateCrc32 {β : Type} [ByteType β] (aBytes : List β) (aBytesLength : Nat) (aPreviousCrc : UInt32) (aPosition : Nat) :
    Option UInt32 :=
  if aPosition = aBytesLength then some aPreviousCrc
  else match _h : aBytes[aPosition]? with
    | none => none
    | some b => calculateCrc32 aBytes aBytesLength
        ((aPreviousCrc >>> 8) ^^^ kCrcTable.getD ((aPreviousCrc ^^^ ByteType.promote b) &&& 0xFF).toNat 0) (aPosition + 1)
termination_by aBytes.length - aPosition
decreasing_by
  have hlt := (List.getElem?_eq_some_iff.mp _h).1
  omega

theorem kCrcTable_eq : kCrcTable = crcTable := rfl

/-- Only the low byte of an element reaches the table. -/
theorem low_byte_index {β : Type} [ByteType β] (crc : UInt32) (b : β) :
    (crc ^^^ ByteType.promote b) &&& 0xFF = (crc ^^^ (ByteType.toByte b).toUInt32) &&& 0xFF := by
  rw [and_ff, and_ff, UInt32.toUInt8_xor, UInt32.toUInt8_xor, ByteType.low_byte, UInt8.toUInt8_toUInt32]

/-- From a position on, the elements up to the length are taken as the bytes they are in memory. -/
theorem calculateCrc32_eq {β : Type} [ByteType β] {aBytes : List β} {aBytesLength aPosition : Nat}
    (hpos : aPosition ≤ aBytesLength) (hlength : aBytesLength ≤ aBytes.length) (aPreviousCrc : UInt32) :
    calculateCrc32 aBytes aBytesLength aPreviousCrc aPosition =
      some (updateCrc32 aPreviousCrc (((aBytes.take aBytesLength).drop aPosition).map ByteType.toByte)) := by
  induction hn : aBytesLength - aPosition generalizing aPosition aPreviousCrc with
  | zero =>
    have hend : aPosition = aBytesLength := Nat.le_antisymm hpos (Nat.le_of_sub_eq_zero hn)
    rw [calculateCrc32, if_pos hend, List.drop_of_length_le (by rw [List.length_take, hend]; exact Nat.min_le_left _ _)]
    rfl
  | succ n ih =>
    have hlt : aPosition < aBytesLength := Nat.lt_of_sub_pos (hn ▸ Nat.succ_pos n)
    have hin : aPosition < (aBytes.take aBytesLength).length := by
      rw [List.length_take]
      omega
    have hget : aBytes[aPosition]? = some (aBytes.take aBytesLength)[aPosition] := by
      rw [List.getElem_take, List.getElem?_eq_getElem]
    rw [calculateCrc32, if_neg (Nat.ne_of_lt hlt)]
    split
    · rename_i h
      rw [h] at hget
      cases hget
    · rename_i b h
      rw [h] at hget
      have hb : b = (aBytes.take aBytesLength)[aPosition] := Option.some.inj hget
      rw [ih hlt _ (by omega), List.drop_eq_getElem_cons hin, ← hb, List.map_cons, updateCrc32, updateCrc32, List.foldl_cons,
        kCrcTable_eq, low_byte_index]

end Crc32Constexpr

/-! ## The register, bit by bit -/

def shiftCrc32 (crc : UInt32) : UInt32 := if crc &&& 1 = 1 then (crc >>> 1) ^^^ 0xEDB88320 else crc >>> 1

def bitwiseCrc32 (crc : UInt32) (data : List UInt8) : UInt32 :=
  data.foldl (fun crc b => shiftCrc32^[8] (crc ^^^ b.toUInt32)) crc

def polynomial : BitVec 32 := 0xEDB88320

theorem shiftCrc32_toBitVec (crc : UInt32) : (shiftCrc32 crc).toBitVec = ShiftRegister.shift polynomial crc.toBitVec := by
  have hbit : (crc &&& 1 = 1) ↔ crc.toBitVec.getLsbD 0 = true := by
    rw [← UInt32.toBitVec_inj, UInt32.toBitVec_and]
    change crc.toBitVec &&& 1#32 = 1#32 ↔ _
    rw [BitVec.and_one_eq_setWidth_ofBool_getLsbD]
    cases crc.toBitVec.getLsbD 0 with
    | false => decide
    | true => decide
  unfold shiftCrc32 ShiftRegister.shift
  by_cases h : crc &&& 1 = 1
  · rw [if_pos h, if_pos (hbit.mp h)]
    rfl
  · rw [if_neg h, if_neg fun h' => h (hbit.mpr h')]
    rfl

theorem iterate_toBitVec (n : Nat) (crc : UInt32) :
    (shiftCrc32^[n] crc).toBitVec = (ShiftRegister.shift polynomial)^[n] crc.toBitVec := by
  induction n generalizing crc with
  | zero => rfl
  | succ n ih => rw [Function.iterate_succ_apply, ih, shiftCrc32_toBitVec, Function.iterate_succ_apply]

/-- Either table holds eight shifts of each byte. -/
theorem crcTable_eq : ∀ i < 256, crcTable.getD i 0 = shiftCrc32^[8] (UInt32.ofNat i) := by
  -- compared as a whole: each of its elements looked up from the start takes much longer
  have hall : crcTable.toList = (List.range 256).map fun i => shiftCrc32^[8] (UInt32.ofNat i) := by decide +kernel
  intro i hi
  have hget : crcTable[i]? = some (shiftCrc32^[8] (UInt32.ofNat i)) := by
    rw [← Array.getElem?_toList, hall, List.getElem?_map, List.getElem?_range hi, Option.map_some]
  rw [Array.getD_eq_getD_getElem?, hget, Option.getD_some]

/-- A table step is eight shifts of the register. -/
theorem tableStep_eq (cs : UInt32) (b : UInt8) :
    (cs >>> 8) ^^^ crcTable.getD ((cs ^^^ b.toUInt32) &&& 0xff).toNat 0 = shiftCrc32^[8] (cs ^^^ b.toUInt32) := by
  have hindex : ((cs ^^^ b.toUInt32) &&& 0xff).toNat < 256 := by
    rw [and_ff, UInt8.toNat_toUInt32]
    exact UInt8.toNat_lt _
  have hmoved : (cs ^^^ b.toUInt32).toBitVec >>> 8 = cs.toBitVec >>> 8 := by
    have hb : b.toUInt32.toBitVec >>> 8 = 0#32 := by
      apply BitVec.eq_of_toNat_eq
      rw [BitVec.toNat_ushiftRight, Nat.shiftRight_eq_div_pow]
      exact Nat.div_eq_of_lt (UInt8.toNat_lt b)
    rw [UInt32.toBitVec_xor, BitVec.ushiftRight_xor_distrib, hb, BitVec.xor_zero]
  rw [crcTable_eq _ hindex, UInt32.ofNat_toNat]
  apply UInt32.toBitVec_inj.mp
  rw [UInt32.toBitVec_xor, iterate_toBitVec, iterate_toBitVec,
    ShiftRegister.iterate_split polynomial (cs ^^^ b.toUInt32).toBitVec 8, hmoved, and_ff, BitVec.xor_comm]
  rfl

/-- The checksum is what the register holds in the end. -/
theorem updateCrc32_eq_bitwise (cs : UInt32) (buffer : List UInt8) : updateCrc32 cs buffer = bitwiseCrc32 cs buffer := by
  unfold updateCrc32 bitwiseCrc32
  exact congrArg (List.foldl · cs buffer) (funext fun cs => funext fun b => tableStep_eq cs b)

/-! ## The agreement -/

/-- Whatever byte type the array has and however much of it is taken, both implementations, cut or
not, compute what the register holds behind the bytes in memory. -/
theorem crc32_implementations_agree {β : Type} [ByteType β] (aBytes : List β) (a b : List UInt8) (c : Crc32) :
    (∀ aBytesLength ≤ aBytes.length,
      Crc32Constexpr.calculateCrc32 aBytes aBytesLength getInitialCrc32Value 0 =
        some (calculateCrc32 ((aBytes.take aBytesLength).map ByteType.toByte))) ∧
      (c.update a).update b = c.update (a ++ b) ∧
      updateCrc32 c.checksum a = bitwiseCrc32 c.checksum a ∧
      calculateCrc32 a = bitwiseCrc32 0xFFFFFFFF a := by
  refine ⟨fun aBytesLength h => ?_, ?_, updateCrc32_eq_bitwise c.checksum a, updateCrc32_eq_bitwise 0xFFFFFFFF a⟩
  · exact Crc32Constexpr.calculateCrc32_eq (Nat.zero_le _) h getInitialCrc32Value
  · exact congrArg Crc32.mk (updateCrc32_append c.checksum a b).symm

/-- Two elements of a signed type, the first one negative. -/
theorem crc32_agrees_on_signed_chars :
    Crc32Constexpr.calculateCrc32 ([-1, 0x68] : List Int8) 2 getInitialCrc32Value 0 = some (calculateCrc32 [0xff, 0x68]) :=
  (crc32_implementations_agree ([-1, 0x68] : List Int8) [] [] {}).1 2 (by decide)

/-! ## Bursts -/

/-- Strings of one length that differ, with all that differs inside four bytes in a row. -/
structure DifferInWindow (a b : List UInt8) : Prop where
  length : a.length = b.length
  differ : a ≠ b
  window : ∃ k, ∀ i, i < k ∨ k + 4 ≤ i → a[i]? = b[i]?

/-- What is before the window and what is behind it is the same. -/
theorem DifferInWindow.split {a b : List UInt8} (h : DifferInWindow a b) :
    ∃ before us vs behind, a = before ++ us ++ behind ∧ b = before ++ vs ++ behind ∧
      us.length = vs.length ∧ us.length ≤ 4 ∧ us ≠ vs := by
  rcases h.window with ⟨k, hk⟩
  have hbefore : a.take k = b.take k := by
    apply List.ext_getElem?
    intro i
    by_cases hi : i < k
    · rw [List.getElem?_take_of_lt hi, List.getElem?_take_of_lt hi, hk i (.inl hi)]
    · rw [List.getElem?_take_eq_none (Nat.le_of_not_lt hi), List.getElem?_take_eq_none (Nat.le_of_not_lt hi)]
  have hbehind : a.drop (k + 4) = b.drop (k + 4) := by
    apply List.ext_getElem?
    intro i
    rw [List.getElem?_drop, List.getElem?_drop, hk _ (.inr (Nat.le_add_right _ i))]
  have hcut : ∀ l : List UInt8, l = l.take k ++ (l.drop k).take 4 ++ l.drop (k + 4) := by
    intro l
    rw [List.append_assoc, ← List.drop_drop, List.take_append_drop, List.take_append_drop]
  refine ⟨a.take k, (a.drop k).take 4, (b.drop k).take 4, a.drop (k + 4), hcut a, ?_, ?_, List.length_take_le _ _, ?_⟩
  · rw [hbefore, hbehind]
    exact hcut b
  · rw [List.length_take, List.length_take, List.length_drop, List.length_drop, h.length]
  · intro hus
    apply h.differ
    rw [hcut a, hcut b, hbefore, hus, hbehind]

theorem updateCrc32_toBitVec (cs : UInt32) (buffer : List UInt8) :
    (updateCrc32 cs buffer).toBitVec = ShiftRegister.absorbAll polynomial cs.toBitVec (buffer.map UInt8.toBitVec) := by
  induction buffer generalizing cs with
  | nil => rfl
  | cons b buffer ih =>
    have hstep : (shiftCrc32^[8] (cs ^^^ b.toUInt32)).toBitVec = ShiftRegister.absorb polynomial cs.toBitVec b.toBitVec :=
      iterate_toBitVec 8 _
    rw [updateCrc32, List.foldl_cons, tableStep_eq, ← updateCrc32, ih, hstep]
    rfl

theorem updateCrc32_ne_of_window {a b : List UInt8} (h : DifferInWindow a b) (cs : UInt32) :
    updateCrc32 cs a ≠ updateCrc32 cs b := by
  rcases h.split with ⟨before, us, vs, behind, rfl, rfl, hlength, hfour, hne⟩
  intro heq
  have heq := congrArg UInt32.toBitVec heq
  rw [updateCrc32_toBitVec, updateCrc32_toBitVec] at heq
  simp only [List.map_append] at heq
  refine ShiftRegister.absorb_ne_of_burst polynomial rfl ?_ ?_ ?_ cs.toBitVec _ _ heq
  · rw [List.length_map, List.length_map, hlength]
  · rw [List.length_map]
    omega
  · exact fun h => hne ((List.map_inj_right fun _ _ => UInt8.toBitVec_inj.mp).mp h)

end Esp32Cam.Ut
