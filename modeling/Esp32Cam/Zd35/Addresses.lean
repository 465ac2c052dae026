/-
  Esp32Cam.Zd35.Addresses — the layout of the ZD35 chip, and the addresses its commands take.

  The chip has two planes of 1024 blocks of 64 pages. A read and a program command name a
  page, and a place in the cache: the offset in the page, with the plane above it, from the
  twelfth bit on. An erase names a block. The three conversions check an address in their
  own ways, the one of the page against the capacity, and lets the capacity itself pass.

  For every other address the conversions agree with each other and with the chip, and no
  address below the capacity is turned away (`translation_sound_iff`).
-/

import Mathlib.Data.Nat.Bitwise

namespace Esp32Cam.Zd35

/-! ## The chip -/

def Zd35x2ChipId : Nat := 0x2C24

def Zd35x2PageSize : Nat := 2048
def Zd35x2BlockSizePages : Nat := 64
def Zd35x2BlockSizeBytes : Nat := Zd35x2BlockSizePages * Zd35x2PageSize
def Zd35x2PaneSizeBlocks : Nat := 1024
def Zd35x2PlaneSizeBytes : Nat := Zd35x2PaneSizeBlocks * Zd35x2BlockSizeBytes

def Zd35x2CapacityPanes : Nat := 2
def Zd35x2CapacityBlocks : Nat := Zd35x2CapacityPanes * Zd35x2PaneSizeBlocks
def Zd35x2CapacityBytes : Nat := Zd35x2CapacityBlocks * Zd35x2BlockSizeBytes
def Zd35x2CapacityPages : Nat := Zd35x2CapacityPanes * Zd35x2PaneSizeBlocks * Zd35x2BlockSizePages

inductive EspErr where
  | invalidArg
  | notSupported
  | timeout
  | other (code : Nat)
  deriving DecidableEq, Repr

/-! ## The conversions -/

def addressToSpiPageAddress (chipId absoluteAddress : Nat) : Except EspErr Nat :=
  if chipId = Zd35x2ChipId then
    if absoluteAddress > Zd35x2CapacityBytes then .error .invalidArg else .ok (absoluteAddress / Zd35x2PageSize)
  else .error .notSupported

def planeSelectByteOffset : Nat := 12

def addressToCacheOffset (chipId absoluteAddress : Nat) : Except EspErr Nat :=
  if chipId = Zd35x2ChipId then
    .ok (absoluteAddress % Zd35x2PageSize ||| (absoluteAddress / Zd35x2PlaneSizeBytes) <<< planeSelectByteOffset)
  else .error .notSupported

def addressToBlockOffset (chipId absoluteAddress : Nat) : Except EspErr Nat :=
  if chipId = Zd35x2ChipId then
    if absoluteAddress > Zd35x2CapacityBytes - Zd35x2BlockSizeBytes then .error .invalidArg
    else if absoluteAddress % Zd35x2BlockSizeBytes ≠ 0 then .error .invalidArg
    else .ok (absoluteAddress / Zd35x2BlockSizeBytes)
  else .error .notSupported

/-! ## The paths -/

/-- The page that a read of an address puts into the cache, and the place in the cache that it reads. -/
def readPath (chipId address : Nat) : Except EspErr (Nat × Nat) :=
  match addressToSpiPageAddress chipId address with
  | .error e => .error e
  | .ok page =>
    match addressToCacheOffset chipId address with
    | .error e => .error e
    | .ok offset => .ok (page, offset)

/-- The place in the cache that `program_page` loads, and the page that the cache is programmed into. -/
def programPath (chipId address : Nat) : Except EspErr (Nat × Nat) :=
  match addressToCacheOffset chipId address with
  | .error e => .error e
  | .ok offset =>
    match addressToSpiPageAddress chipId address with
    | .error e => .error e
    | .ok page => .ok (page, offset)

/-! ## What the conversions yield -/

section
variable {address : Nat}

theorem page_ok (h : address ≤ Zd35x2CapacityBytes) :
    addressToSpiPageAddress Zd35x2ChipId address = .ok (address / Zd35x2PageSize) := by
  rw [addressToSpiPageAddress, if_pos rfl, if_neg (Nat.not_lt.mpr h)]

theorem page_error (h : Zd35x2CapacityBytes < address) :
    addressToSpiPageAddress Zd35x2ChipId address = .error .invalidArg := by
  rw [addressToSpiPageAddress, if_pos rfl, if_pos h]

/-- The plane stands above the twelve bits of the offset. -/
theorem cache_offset_ok (address : Nat) : addressToCacheOffset Zd35x2ChipId address =
    .ok (address / Zd35x2PlaneSizeBytes * 4096 + address % Zd35x2PageSize) := by
  have hlow : address % Zd35x2PageSize < 2 ^ planeSelectByteOffset :=
    Nat.lt_trans (Nat.mod_lt _ (by decide)) (by decide)
  rw [addressToCacheOffset, if_pos rfl, Nat.or_comm, ← Nat.shiftLeft_add_eq_or_of_lt hlow, Nat.shiftLeft_eq]
  rfl

theorem of_page_ok {chipId page : Nat} (h : addressToSpiPageAddress chipId address = .ok page) :
    chipId = Zd35x2ChipId ∧ page = address / Zd35x2PageSize := by
  unfold addressToSpiPageAddress at h
  split at h
  · next hid =>
    split at h <;> cases h
    exact ⟨hid, rfl⟩
  · cases h

theorem of_cache_offset_ok {chipId offset : Nat} (h : addressToCacheOffset chipId address = .ok offset) :
    chipId = Zd35x2ChipId ∧ offset = address / Zd35x2PlaneSizeBytes * 4096 + address % Zd35x2PageSize := by
  by_cases hid : chipId = Zd35x2ChipId
  · rw [hid, cache_offset_ok] at h
    exact ⟨hid, (Except.ok.inj h).symm⟩
  · rw [addressToCacheOffset, if_neg hid] at h
    cases h

theorem readPath_ok (h : address ≤ Zd35x2CapacityBytes) : readPath Zd35x2ChipId address =
    .ok (address / Zd35x2PageSize, address / Zd35x2PlaneSizeBytes * 4096 + address % Zd35x2PageSize) := by
  rw [readPath, page_ok h, cache_offset_ok]

theorem readPath_error (h : Zd35x2CapacityBytes < address) : readPath Zd35x2ChipId address = .error .invalidArg := by
  rw [readPath, page_error h]

/-- Reading and programming take an address for the same place. -/
theorem programPath_eq (address : Nat) : programPath Zd35x2ChipId address = readPath Zd35x2ChipId address := by
  rw [programPath, readPath, cache_offset_ok]

theorem le_of_readPath {t : Nat × Nat} (h : readPath Zd35x2ChipId address = .ok t) : address ≤ Zd35x2CapacityBytes := by
  refine Nat.le_of_not_lt fun hlt => ?_
  rw [readPath_error hlt] at h
  cases h

theorem block_ok {block : Nat} (h : addressToBlockOffset Zd35x2ChipId address = .ok block) :
    address ≤ Zd35x2CapacityBytes - Zd35x2BlockSizeBytes ∧ block = address / Zd35x2BlockSizeBytes := by
  rw [addressToBlockOffset, if_pos rfl] at h
  split at h
  · cases h
  · split at h
    · cases h
    · cases h
      exact ⟨by omega, rfl⟩

end

/-! ## Soundness -/

structure Sound (address : Nat) : Prop where
  /-- What is read and programmed is a page of the chip; the offset has its twelve bits for
      itself, and the bits above them name a plane of the chip. -/
  page : ∀ page offset, readPath Zd35x2ChipId address = .ok (page, offset) →
    page < Zd35x2CapacityPages ∧ offset % 2 ^ planeSelectByteOffset = address % Zd35x2PageSize ∧
      offset / 2 ^ planeSelectByteOffset = address / Zd35x2PlaneSizeBytes ∧
      offset / 2 ^ planeSelectByteOffset < Zd35x2CapacityPanes
  determines : ∀ t other, readPath Zd35x2ChipId address = .ok t → readPath Zd35x2ChipId other = .ok t → other = address
  same : programPath Zd35x2ChipId address = readPath Zd35x2ChipId address
  block : ∀ block, addressToBlockOffset Zd35x2ChipId address = .ok block → block < Zd35x2CapacityBlocks
  /-- An address of the chip is taken, and an erase takes the start of its block. -/
  accepted : address < Zd35x2CapacityBytes → (∃ t, readPath Zd35x2ChipId address = .ok t) ∧
    (∃ t, programPath Zd35x2ChipId address = .ok t) ∧
    ∃ block, addressToBlockOffset Zd35x2ChipId (address / Zd35x2BlockSizeBytes * Zd35x2BlockSizeBytes) = .ok block

theorem determines {address other : Nat} {t : Nat × Nat} (h : readPath Zd35x2ChipId address = .ok t)
    (h' : readPath Zd35x2ChipId other = .ok t) : other = address := by
  rw [readPath_ok (le_of_readPath h)] at h
  rw [readPath_ok (le_of_readPath h')] at h'
  rcases Prod.mk.inj (Except.ok.inj (h'.trans h.symm)) with ⟨hpage, hoffset⟩
  unfold Zd35x2PlaneSizeBytes Zd35x2PaneSizeBlocks Zd35x2BlockSizeBytes Zd35x2BlockSizePages Zd35x2PageSize at *
  omega

theorem block_lt {address block : Nat} (h : addressToBlockOffset Zd35x2ChipId address = .ok block) :
    block < Zd35x2CapacityBlocks := by
  rcases block_ok h with ⟨hle, rfl⟩
  unfold Zd35x2CapacityBytes at hle
  unfold Zd35x2CapacityBlocks Zd35x2CapacityPanes Zd35x2PaneSizeBlocks Zd35x2BlockSizeBytes Zd35x2BlockSizePages
    Zd35x2PageSize at *
  omega

theorem accepted {address : Nat} (h : address < Zd35x2CapacityBytes) : (∃ t, readPath Zd35x2ChipId address = .ok t) ∧
    (∃ t, programPath Zd35x2ChipId address = .ok t) ∧
    ∃ block, addressToBlockOffset Zd35x2ChipId (address / Zd35x2BlockSizeBytes * Zd35x2BlockSizeBytes) = .ok block := by
  have hread := readPath_ok (Nat.le_of_lt h)
  refine ⟨⟨_, hread⟩, ⟨_, (programPath_eq address).trans hread⟩, ?_⟩
  have hlast : ¬ address / Zd35x2BlockSizeBytes * Zd35x2BlockSizeBytes > Zd35x2CapacityBytes - Zd35x2BlockSizeBytes := by
    unfold Zd35x2CapacityBytes Zd35x2CapacityBlocks Zd35x2CapacityPanes Zd35x2PaneSizeBlocks Zd35x2BlockSizeBytes
      Zd35x2BlockSizePages Zd35x2PageSize at *
    omega
  rw [addressToBlockOffset, if_pos rfl, if_neg hlast, if_neg (not_not.mpr (Nat.mul_mod_left _ _))]
  exact ⟨_, rfl⟩

/-- **Address translation.** The chip and the conversions agree on every address but the capacity. -/
theorem translation_sound_iff (address : Nat) : Sound address ↔ address ≠ Zd35x2CapacityBytes := by
  constructor
  · intro h heq
    have hpage := (h.page _ _ (readPath_ok heq.le)).1
    rw [heq] at hpage
    exact absurd hpage (by decide)
  · intro hne
    refine ⟨fun page offset hread => ?_, fun t other => determines, programPath_eq address, fun block => block_lt,
      accepted⟩
    have hle := le_of_readPath hread
    rw [readPath_ok hle] at hread
    rcases Prod.mk.inj (Except.ok.inj hread) with ⟨rfl, rfl⟩
    have hlt : address < Zd35x2CapacityBytes := Nat.lt_of_le_of_ne hle hne
    unfold Zd35x2CapacityBytes at hlt
    unfold planeSelectByteOffset Zd35x2CapacityPages Zd35x2PlaneSizeBytes Zd35x2CapacityBlocks Zd35x2CapacityPanes
      Zd35x2PaneSizeBlocks Zd35x2BlockSizeBytes Zd35x2BlockSizePages Zd35x2PageSize at *
    refine ⟨by omega, by omega, by omega, by omega⟩

/-- The capacity is taken for the page behind the last one. -/
theorem the_capacity_is_taken_for_a_page : ¬ Sound Zd35x2CapacityBytes := by
  intro h
  exact absurd (h.page _ _ (readPath_ok (Nat.le_refl _))).1 (by decide)

end Esp32Cam.Zd35
