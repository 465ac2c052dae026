/-
  Esp32Cam.Sys.EraseLog — when the blocks of a written range are erased.

  A log is what was asked of a flash memory, the last operation first.
  `EraseDiscipline` is what is asked of the log of a write to `len` bytes from `base` on:
  each erase block the range touches is erased once, before any page of it is written,
  and no other one is.

  `Erasing g base T` says how a log that keeps to it looks on the way: the blocks from
  that of `base` to `T` have been erased, each once and before it was written. Such a log
  keeps to it in the end exactly when `T` is the block of the last byte
  (`Erasing.discipline_iff`).
-/

import Esp32Cam.Sys.FlashMemory

namespace Esp32Cam.Sys

namespace FlashMemoryGeometry

variable (g : FlashMemoryGeometry)

def eraseBlockOfPage (writeBlockId : Nat) : Nat := g.convertAddressIntoEraseBlockOffset (writeBlockId * g.writeBlockSize)

theorem eraseBlockOfPage_eq (a : Nat) :
    g.eraseBlockOfPage (g.convertAddressIntoWriteBlockOffset a) = g.convertAddressIntoEraseBlockOffset a := by
  obtain ⟨m, hm⟩ := g.dvd
  unfold eraseBlockOfPage convertAddressIntoWriteBlockOffset convertAddressIntoEraseBlockOffset
  rw [hm, ← Nat.div_div_eq_div_mul, ← Nat.div_div_eq_div_mul, Nat.mul_div_cancel _ g.writeBlockSize_pos]

theorem eraseBlock_mono {a b : Nat} (h : a ≤ b) :
    g.convertAddressIntoEraseBlockOffset a ≤ g.convertAddressIntoEraseBlockOffset b := Nat.div_le_div_right h

theorem eraseBlock_mul_le (a : Nat) : g.convertAddressIntoEraseBlockOffset a * g.eraseBlockSize ≤ a :=
  Nat.div_mul_le_self a g.eraseBlockSize

/-- From inside a block no more than the next one is reached within a page. -/
theorem eraseBlock_add_page (a : Nat) :
    g.convertAddressIntoEraseBlockOffset (a + g.writeBlockSize) ≤ g.convertAddressIntoEraseBlockOffset a + 1 := by
  obtain ⟨m, hm⟩ := g.dvd
  have hpos := g.eraseBlockSize_pos
  have hle : g.writeBlockSize ≤ g.eraseBlockSize := Nat.le_of_dvd hpos g.dvd
  calc g.convertAddressIntoEraseBlockOffset (a + g.writeBlockSize)
      ≤ g.convertAddressIntoEraseBlockOffset (a + g.eraseBlockSize) := g.eraseBlock_mono (by omega)
    _ = g.convertAddressIntoEraseBlockOffset a + 1 := Nat.add_div_right a hpos

end FlashMemoryGeometry

variable {g : FlashMemoryGeometry} {base len T b : Nat} {log : List FlashOp}

def Touches (g : FlashMemoryGeometry) (base len b : Nat) : Prop :=
  ∃ a, base ≤ a ∧ a < base + len ∧ g.convertAddressIntoEraseBlockOffset a = b

structure EraseDiscipline (g : FlashMemoryGeometry) (base len : Nat) (log : List FlashOp) : Prop where
  once : ∀ b, Touches g base len b → log.count (.erase b) = 1
  before : ∀ b, Touches g base len b → ∀ later id offset length earlier,
    log = later ++ .write id offset length :: earlier → g.eraseBlockOfPage id = b → .erase b ∈ earlier
  outside : ∀ b, ¬ Touches g base len b → .erase b ∉ log

/-- Every page written lies in a block that was erased before. -/
def WritesErased (g : FlashMemoryGeometry) (log : List FlashOp) : Prop :=
  ∀ later id offset length earlier, log = later ++ .write id offset length :: earlier →
    .erase (g.eraseBlockOfPage id) ∈ earlier

structure Erasing (g : FlashMemoryGeometry) (base T : Nat) (log : List FlashOp) : Prop where
  le : g.convertAddressIntoEraseBlockOffset base ≤ T
  count : ∀ b, log.count (.erase b) = if g.convertAddressIntoEraseBlockOffset base ≤ b ∧ b ≤ T then 1 else 0
  writes : WritesErased g log

/-- The log breaks the rules, whatever follows. -/
def Spoiled (g : FlashMemoryGeometry) (base len : Nat) (log : List FlashOp) : Prop :=
  ∀ later, ¬ EraseDiscipline g base len (later ++ log)

theorem touches_iff : Touches g base len b ↔ 0 < len ∧ g.convertAddressIntoEraseBlockOffset base ≤ b ∧
    b ≤ g.convertAddressIntoEraseBlockOffset (base + len - 1) := by
  constructor
  · intro h
    rcases h with ⟨a, hle, hlt, rfl⟩
    exact ⟨by omega, g.eraseBlock_mono hle, g.eraseBlock_mono (by omega)⟩
  · intro h
    rcases h with ⟨hlen, hle, hle'⟩
    rcases Nat.eq_or_lt_of_le hle with heq | hlt
    · exact ⟨base, Nat.le_refl base, by omega, heq⟩
    · -- a later block is touched at its first byte
      have hfirst : base < b * g.eraseBlockSize := (Nat.div_lt_iff_lt_mul g.eraseBlockSize_pos).mp hlt
      have hlast := (Nat.le_div_iff_mul_le g.eraseBlockSize_pos).mp hle'
      exact ⟨b * g.eraseBlockSize, by omega, by omega, Nat.mul_div_cancel b g.eraseBlockSize_pos⟩

instance Touches.decidable (g : FlashMemoryGeometry) (base len b : Nat) : Decidable (Touches g base len b) :=
  decidable_of_iff _ touches_iff.symm

/-! ## One operation more -/

theorem WritesErased.cons (h : WritesErased g log) {op : FlashOp}
    (hop : ∀ id offset length, op = .write id offset length → .erase (g.eraseBlockOfPage id) ∈ log) :
    WritesErased g (op :: log) := by
  intro later id offset length earlier heq
  cases later with
  | nil =>
    rw [List.nil_append, List.cons.injEq] at heq
    exact heq.2 ▸ hop id offset length heq.1
  | cons op' later =>
    rw [List.cons_append, List.cons.injEq] at heq
    exact h later id offset length earlier heq.2

theorem Erasing.first (g : FlashMemoryGeometry) (base : Nat) :
    Erasing g base (g.convertAddressIntoEraseBlockOffset base) [.erase (g.convertAddressIntoEraseBlockOffset base)] := by
  refine ⟨Nat.le_refl _, fun b => ?_, ?_⟩
  · simp only [List.count_singleton, beq_iff_eq, FlashOp.erase.injEq]
    exact if_congr (by omega) rfl rfl
  · have hnone : WritesErased g [] := by
      intro later id offset length earlier heq
      simp at heq
    exact hnone.cons fun id offset length heq => by cases heq

theorem Erasing.erase (h : Erasing g base T log) : Erasing g base (T + 1) (.erase (T + 1) :: log) := by
  have hle := h.le
  refine ⟨by omega, fun b => ?_, h.writes.cons fun id offset length heq => by cases heq⟩
  simp only [List.count_cons, h.count b, beq_iff_eq, FlashOp.erase.injEq]
  split <;> split <;> split <;> omega

theorem Erasing.read (h : Erasing g base T log) (id offset length : Nat) :
    Erasing g base T (.read id offset length :: log) := by
  refine ⟨h.le, fun b => ?_, h.writes.cons fun id offset length heq => by cases heq⟩
  rw [List.count_cons_of_ne (fun heq => by cases heq), h.count b]

theorem Erasing.mem (h : Erasing g base T log) (hb : g.convertAddressIntoEraseBlockOffset base ≤ b) (hb' : b ≤ T) :
    .erase b ∈ log := by
  rw [← List.count_pos_iff, h.count b, if_pos ⟨hb, hb'⟩]
  exact Nat.one_pos

theorem Erasing.write (h : Erasing g base T log) {id : Nat} (offset length : Nat)
    (hid : g.convertAddressIntoEraseBlockOffset base ≤ g.eraseBlockOfPage id) (hid' : g.eraseBlockOfPage id ≤ T) :
    Erasing g base T (.write id offset length :: log) := by
  refine ⟨h.le, fun b => ?_, h.writes.cons fun id' offset' length' heq => ?_⟩
  · rw [List.count_cons_of_ne (fun heq => by cases heq), h.count b]
  · cases heq
    exact h.mem hid hid'

/-! ## The log in the end -/

theorem Erasing.discipline_iff (h : Erasing g base T log) : EraseDiscipline g base len log ↔
    0 < len ∧ T = g.convertAddressIntoEraseBlockOffset (base + len - 1) := by
  have hT : .erase T ∈ log := h.mem h.le (Nat.le_refl T)
  constructor
  · intro hdiscipline
    have htouched : Touches g base len T := Decidable.by_contra fun hnot => hdiscipline.outside T hnot hT
    obtain ⟨hlen, -, hle⟩ := touches_iff.mp htouched
    have hlast := hdiscipline.once _ (touches_iff.mpr ⟨hlen, g.eraseBlock_mono (by omega), Nat.le_refl _⟩)
    rw [h.count] at hlast
    refine ⟨hlen, Nat.le_antisymm hle ?_⟩
    split at hlast
    · rename_i hbetween
      exact hbetween.2
    · cases hlast
  · intro h
    rcases h with ⟨hlen, rfl⟩
    have htouches : ∀ b, Touches g base len b ↔ g.convertAddressIntoEraseBlockOffset base ≤ b ∧
        b ≤ g.convertAddressIntoEraseBlockOffset (base + len - 1) := fun b =>
      touches_iff.trans (and_iff_right hlen)
    refine ⟨fun b hb => ?_, fun b hb later id offset length earlier heq hid => ?_, fun b hb hmem => ?_⟩
    · rw [h.count, if_pos ((htouches b).mp hb)]
    · rw [← hid]
      exact h.writes later id offset length earlier heq
    · rw [← List.count_pos_iff, h.count, if_neg (mt (htouches b).mpr hb)] at hmem
      cases hmem

/-- A block at or before the last one erased is not to be erased again. -/
theorem Erasing.spoiled (h : Erasing g base T log) (hb : b ≤ T) (len : Nat) : Spoiled g base len (.erase b :: log) := by
  intro later hdiscipline
  by_cases htouched : Touches g base len b
  · have honce := hdiscipline.once b htouched
    rw [List.count_append, List.count_cons_self, h.count b, if_pos ⟨(touches_iff.mp htouched).2.1, hb⟩] at honce
    omega
  · exact hdiscipline.outside b htouched (List.mem_append_right _ List.mem_cons_self)

theorem Spoiled.append (h : Spoiled g base len log) (later : List FlashOp) : Spoiled g base len (later ++ log) := by
  intro later'
  rw [← List.append_assoc]
  exact h (later' ++ later)

end Esp32Cam.Sys
