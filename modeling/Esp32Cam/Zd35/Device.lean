/-
  Esp32Cam.Zd35.Device — the ZD35 behind the interface of a flash memory device.

  What is built on `Sys.FlashMemory` takes it for a device that stores what it is given.
  `readBlock`, `writeBlock` and `eraseBlock` of the ZD35 are calls of ESP-IDF, which calls
  the driver. They are such a device as long as they report no error, for what they can do
  (`Fits`): blocks inside the chip, reads within a page, and writes within an erased page,
  which are of the whole page if a load does not clear the cache.

  The driver names the block to erase by its number. What the chip makes of the address of
  BLOCK ERASE is not in the sources, and is left open (`ChipKind.erases`): an erasure fits if it
  is of the block with that number.

  - `calls_refine`: a run of such calls returns what the device returns, and leaves its
    bytes in the array of the chip, whatever the chip answered on the way.
-/

import Esp32Cam.Lib.Run
import Esp32Cam.Zd35.FlashMemory

namespace Esp32Cam.Zd35

open Lib

variable {σ : Type}

/-! ## The chip and ESP-IDF -/

/-- What the sources do not say of the chip. -/
structure ChipKind where
  /-- PROGRAM LOAD erases the rest of the cache. -/
  resets : Bool
  /-- The block that BLOCK ERASE erases, by its address. -/
  erases : Nat → Nat

def pageRead (pageAddress : Nat) : Transaction :=
  { command := Zd35CommandPageRead, address := pageAddress, addressBitlen := 24, mosiData := [], misoLen := 0 }

def blockErase (address : Nat) : Transaction :=
  { command := Zd35CommandBlockErase, address := address, addressBitlen := 24, mosiData := [], misoLen := 0 }

/-- What a chip with a memory does besides programming. -/
structure RangeLaw (flash : EspFlash σ) (memory : σ → Memory) (kind : ChipKind) : Prop where
  pageRead : ∀ page chip miso, (flash.commonCommand (pageRead page) chip).1 = .ok miso →
    memory (flash.commonCommand (Zd35.pageRead page) chip).2 = (memory chip).pageRead page
  blockErase : ∀ address chip miso, (flash.commonCommand (blockErase address) chip).1 = .ok miso →
    memory (flash.commonCommand (Zd35.blockErase address) chip).2 = (memory chip).blockErase (kind.erases address)
  /-- The generic read returns what is in the cache, within a page. -/
  genericRead : ∀ plane offset length, offset + length ≤ Zd35x2PageSize → ∀ bus bytes bus',
    ((flash.genericRead (plane * 4096 + offset) length).run (answer flash)).Ends bus bytes bus' →
      bytes = readMem ((memory bus.chip).cache plane) offset length ∧ memory bus'.chip = memory bus.chip

/-- What ESP-IDF does for a range within a page, and for a block. -/
structure IdfRangeLaw (flash : EspFlashRange σ) : Prop where
  reads : ∀ address length, 0 < length → address % Zd35x2PageSize + length ≤ Zd35x2PageSize →
    AsksOnce (.read address length) (flash.espFlashRead address length)
  erases : ∀ start, AsksOnce (.eraseBlock start) (flash.espFlashEraseRegion start Zd35x2BlockSizeBytes)

structure DeviceLaw (flash : EspFlashRange σ) (memory : σ → Memory) (kind : ChipKind) : Prop where
  chipId : flash.chipId = Zd35x2ChipId
  chip : ChipLaw flash.toEspFlash memory kind.resets
  idf : IdfLaw flash
  range : RangeLaw flash.toEspFlash memory kind
  idfRange : IdfRangeLaw flash

/-! ## What reading and erasing do to the memory -/

section
variable {flash : EspFlashRange σ} {memory : σ → Memory} {kind : ChipKind} (law : DeviceLaw flash memory kind)
  {bus bus' : Bus σ}
include law

theorem pollWaitOip_ends (h : (pollWaitOip flash.toEspFlash).Ends bus () bus') : memory bus'.chip = memory bus.chip := by
  have hkept := (pollWaitOip_keeps law.chip).related bus
  rwa [show (pollWaitOip flash.toEspFlash).exec bus = _ from h] at hkept

theorem read_ends {address length : Nat} {bytes : List UInt8} (hfits : address % Zd35x2PageSize + length ≤ Zd35x2PageSize)
    (h : (read flash.toEspFlash address length).Ends bus bytes bus') :
    bytes = readMem (memory bus.chip).array address length ∧ (memory bus'.chip).array = (memory bus.chip).array := by
  rcases Routine.ends_bind.mp h with ⟨page, bus₁, hpage, h₁⟩
  rcases Routine.ends_bind.mp h₁ with ⟨_, bus₂, hread, h₂⟩
  rcases Routine.ends_bind.mp h₂ with ⟨offset, bus₃, hoffset, hgeneric⟩
  rcases Routine.ends_bind.mp hread with ⟨miso, bus₄, hcommand, hpoll⟩
  rcases Routine.ends_ofExcept.mp hpage with ⟨hconverted, rfl⟩
  rcases of_page_ok hconverted with ⟨-, rfl⟩
  rcases Routine.ends_ofExcept.mp hoffset with ⟨hconverted', rfl⟩
  rcases of_cache_offset_ok hconverted' with ⟨-, rfl⟩
  rcases Prod.mk.inj (Routine.ends_step.mp hcommand) with ⟨hmiso, rfl⟩
  have hmemory : memory bus₃.chip = (memory bus₁.chip).pageRead (address / Zd35x2PageSize) :=
    (pollWaitOip_ends law hpoll).trans (law.range.pageRead _ _ _ hmiso)
  have hplane : planeOfPage (address / Zd35x2PageSize) = address / Zd35x2PlaneSizeBytes := Nat.div_div_eq_div_mul ..
  obtain ⟨rfl, hkept⟩ := law.range.genericRead _ _ _ hfits _ _ _ hgeneric
  rw [hkept, hmemory]
  refine ⟨?_, rfl⟩
  dsimp only [Memory.pageRead]
  rw [hplane, Function.update_self]
  refine List.map_congr_left fun k _ => congrArg (memory bus₁.chip).array ?_
  rw [← Nat.add_assoc, Nat.div_add_mod']

theorem eraseBlock_ends {start : Nat} (h : (eraseBlock flash.toEspFlash start).Ends bus () bus') :
    memory bus'.chip = (memory bus.chip).blockErase (kind.erases (start / Zd35x2BlockSizeBytes)) := by
  rcases Routine.ends_bind.mp h with ⟨r, bus₁, hprotect, h₁⟩
  rcases Routine.ends_bind.mp h₁ with ⟨block, bus₂, hblock, h₂⟩
  rcases Routine.ends_bind.mp h₂ with ⟨miso, bus₃, hcommand, hpoll⟩
  rw [Routine.ends_attempt] at hprotect
  rcases Routine.ends_ofExcept.mp hblock with ⟨hconverted, rfl⟩
  rw [law.chipId] at hconverted
  obtain ⟨-, rfl⟩ := block_ok hconverted
  rcases Prod.mk.inj (Routine.ends_step.mp hcommand) with ⟨hmiso, rfl⟩
  have hprotected := (setWriteProtect_keeps law.chip law.idf.toGenericLaw false).related bus
  rw [hprotect] at hprotected
  calc memory bus'.chip = _ := pollWaitOip_ends law hpoll
    _ = (memory bus₂.chip).blockErase (kind.erases (start / Zd35x2BlockSizeBytes)) := law.range.blockErase _ _ _ hmiso
    _ = _ := by rw [show memory bus₂.chip = memory bus.chip from hprotected]

end

/-! ## The device -/

inductive DeviceCall where
  | write (aWriteBlockId aWriteBlockOffset : Nat) (aData : List UInt8)
  | read (aReadBlockId aReadBlockOffset aBufferSize : Nat)
  | erase (aEraseBlockId : Nat)

/-- The call, with the bytes that it fills the buffer with. -/
def DeviceCall.run (flash : EspFlashRange σ) : DeviceCall → Routine Error (Bus σ) (List UInt8)
  | .write aWriteBlockId aWriteBlockOffset aData => do
    writeBlock (some flash) aWriteBlockId aWriteBlockOffset (some aData)
    return []
  | .read aReadBlockId aReadBlockOffset aBufferSize =>
    FlashMemory.readBlock (some flash) aReadBlockId aReadBlockOffset aBufferSize
  | .erase aEraseBlockId => do
    FlashMemory.eraseBlock (some flash) aEraseBlockId
    return []

def DeviceCall.serve (d : Sys.FlashMemory) : DeviceCall → Sys.FlashMemory × Option (List UInt8)
  | .write aWriteBlockId aWriteBlockOffset aData =>
    let (d, ok) := d.writeBlock aWriteBlockId aWriteBlockOffset aData
    (d, if ok then some [] else none)
  | .read aReadBlockId aReadBlockOffset aBufferSize => d.readBlock aReadBlockId aReadBlockOffset aBufferSize
  | .erase aEraseBlockId =>
    let (d, ok) := d.eraseBlock aEraseBlockId
    (d, if ok then some [] else none)

/-- What the chip can do. -/
def DeviceCall.Fits (kind : ChipKind) (d : Sys.FlashMemory) : DeviceCall → Prop
  | .write aWriteBlockId aWriteBlockOffset aData =>
    aWriteBlockId * Zd35x2PageSize + aWriteBlockOffset + aData.length ≤ Zd35x2CapacityBytes ∧ aData ≠ [] ∧
      aWriteBlockOffset + aData.length ≤ Zd35x2PageSize ∧ (kind.resets = true ∨ aData.length = Zd35x2PageSize) ∧
      ∀ i, i / Zd35x2PageSize = aWriteBlockId → d.bytes i = erased
  | .read aReadBlockId aReadBlockOffset aBufferSize =>
    aReadBlockId * Zd35x2PageSize + aReadBlockOffset + aBufferSize ≤ Zd35x2CapacityBytes ∧ 0 < aBufferSize ∧
      aReadBlockOffset + aBufferSize ≤ Zd35x2PageSize
  | .erase aEraseBlockId => aEraseBlockId < Zd35x2CapacityBlocks ∧ kind.erases aEraseBlockId = aEraseBlockId

structure Represents (memory : σ → Memory) (bus : Bus σ) (d : Sys.FlashMemory) : Prop where
  geometry : d.geometry = geometry
  faultFree : d.FaultFree
  bytes : (memory bus.chip).array = d.bytes

section
variable {flash : EspFlashRange σ} {memory : σ → Memory} {kind : ChipKind} (law : DeviceLaw flash memory kind)
  {bus bus' : Bus σ} {d : Sys.FlashMemory}
include law

omit law in
/-- A range within a page, of all of it if a load leaves the rest of the cache. -/
theorem onePage_of_fits {resets : Bool} {id offset : Nat} {data : List UInt8} (hne : data ≠ [])
    (hpage : offset + data.length ≤ Zd35x2PageSize)
    (hwhole : resets = true ∨ data.length = Zd35x2PageSize) (cache : Nat → UInt8) :
    OnePage resets cache (id * Zd35x2PageSize + offset) data := by
  have hpos := List.length_pos_iff.mpr hne
  have hmod : (id * Zd35x2PageSize + offset) % Zd35x2PageSize = offset := by
    rw [Nat.mul_add_mod', Nat.mod_eq_of_lt (by omega)]
  have hroom : pageRoom (id * Zd35x2PageSize + offset) = Zd35x2PageSize - offset := by rw [pageRoom, hmod]
  have hnone : behindFirst (id * Zd35x2PageSize + offset) data.length = 0 := by
    have hover : data.length - (Zd35x2PageSize - offset) = 0 := by omega
    rw [behindFirst, hroom, hover, inPlane]
    omega
  refine ⟨fun k hk hbehind => ?_, fun k hk _ hcovered => ?_, fun hresets x hx _ hout => ?_⟩
  · rw [hroom] at hbehind
    omega
  · rw [hnone] at hcovered
    exact absurd hcovered (not_lt_covered_zero _ _)
  · rcases hwhole with hreset | hlength
    · rw [hreset] at hresets
      cases hresets
    · rw [hmod] at hout
      omega

omit law in
theorem overlay_of_written {before after : Nat → UInt8} {start : Nat} {data : List UInt8}
    (h : Written before after start data) : after = overlay before start data := by
  funext i
  by_cases hin : start ≤ i ∧ i < start + data.length
  · obtain ⟨k, rfl⟩ := Nat.exists_eq_add_of_le hin.1
    have hk : k < data.length := by omega
    rw [overlay_at hk]
    exact (h.stored k hk).2
  · have hout : i < start ∨ start + data.length ≤ i := by omega
    rw [h.unchanged i hout]
    rcases hout with hbefore | hbehind
    · exact (overlay_before hbefore).symm
    · exact (overlay_behind hbehind).symm

theorem write_refines {id offset : Nat} {data answer : List UInt8} (hd : Represents memory bus d)
    (hfits : (DeviceCall.write id offset data).Fits kind d)
    (h : ((DeviceCall.write id offset data).run flash).Ends bus answer bus') :
    ((DeviceCall.write id offset data).serve d).2 = some answer ∧
      Represents memory bus' ((DeviceCall.write id offset data).serve d).1 := by
  obtain ⟨hinside, hne, hpage, hwhole, herased⟩ := hfits
  rcases Routine.ends_bind.mp h with ⟨_, bus₁, hcall, hpure⟩
  rcases Routine.ends_pure.mp hpure with ⟨rfl, rfl⟩
  have hpos := List.length_pos_iff.mpr hne
  have hstored : (memory bus'.chip).array = overlay d.bytes (id * Zd35x2PageSize + offset) data := by
    have hcapacity : Zd35x2CapacityBytes < 2 ^ 32 := by decide
    have hwrite := Routine.ends_mapError.mp hcall
    rw [address_eq law.chipId (by omega)] at hwrite
    obtain ⟨-, bus₁, hkept, hdriver⟩ := asksOnce_ends law.chip law.idf.toGenericLaw (law.idf.writes _ _ hne) hwrite
    have herasedPages : ErasedPages (memory bus.chip).array (id * Zd35x2PageSize + offset) data.length := by
      intro i hlow hhigh
      rw [hd.bytes]
      refine herased i ?_
      rw [pageSize_eq] at *
      omega
    rw [(write_ends law.chip law.idf.toGenericLaw hdriver).2, hkept, ← hd.bytes]
    exact overlay_of_written ((written_iff hne hinside herasedPages).mpr (onePage_of_fits hne hpage hwhole _))
  have hinside' : id * d.geometry.writeBlockSize + offset + data.length ≤ d.geometry.size := by
    rw [hd.geometry]
    exact hinside
  obtain ⟨hbytes, hok⟩ := hd.faultFree.writeBlock hinside'
  refine ⟨if_pos hok, hd.geometry, hd.faultFree, ?_⟩
  refine hstored.trans (hbytes.trans ?_).symm
  rw [hd.geometry]
  rfl

theorem read_refines {id offset length : Nat} {answer : List UInt8} (hd : Represents memory bus d)
    (hfits : (DeviceCall.read id offset length).Fits kind d)
    (h : ((DeviceCall.read id offset length).run flash).Ends bus answer bus') :
    ((DeviceCall.read id offset length).serve d).2 = some answer ∧
      Represents memory bus' ((DeviceCall.read id offset length).serve d).1 := by
  obtain ⟨hinside, hpos, hpage⟩ := hfits
  have hcapacity : Zd35x2CapacityBytes < 2 ^ 32 := by decide
  have hmod : (id * Zd35x2PageSize + offset) % Zd35x2PageSize = offset := by
    rw [Nat.mul_add_mod', Nat.mod_eq_of_lt (by omega)]
  have hrun := Routine.ends_mapError.mp h
  rw [address_eq law.chipId (by omega)] at hrun
  obtain ⟨-, bus₁, hkept, hread⟩ := asksOnce_ends law.chip law.idf.toGenericLaw
    (law.idfRange.reads _ _ hpos (by rwa [hmod])) hrun
  obtain ⟨hbytes, harray⟩ := read_ends law (by rwa [hmod]) hread
  have hinside' : id * d.geometry.writeBlockSize + offset + length ≤ d.geometry.size := by
    rw [hd.geometry]
    exact hinside
  refine ⟨(hd.faultFree.readBlock hinside').trans ?_, hd.geometry, hd.faultFree, ?_⟩
  · rw [hbytes, hkept, hd.bytes, hd.geometry]
    rfl
  · rw [harray, hkept, hd.bytes]
    exact (d.readBlock_bytes id offset length).symm

omit law in
theorem served_erase {id : Nat} (hgeometry : d.geometry = geometry) (hfaults : d.FaultFree) (hid : id < Zd35x2CapacityBlocks) :
    ((DeviceCall.erase id).serve d).1.bytes = (fun i => if i / Zd35x2BlockSizeBytes = id then erased else d.bytes i) ∧
      ((DeviceCall.erase id).serve d).2 = some [] := by
  have hinside : id < d.geometry.nEraseBlocks := by rw [hgeometry]; exact hid
  have hissued := hfaults.issue (.erase id) hinside
    (overlay d.bytes (id * d.geometry.eraseBlockSize) (List.replicate d.geometry.eraseBlockSize erased))
  refine ⟨hissued.1.trans ?_, if_pos hissued.2⟩
  rw [hgeometry]
  funext i
  rw [overlay_of_forall_eq (v := erased) fun x hx => List.eq_of_mem_replicate hx, List.length_replicate]
  refine if_congr ?_ rfl rfl
  show id * Zd35x2BlockSizeBytes ≤ i ∧ i < id * Zd35x2BlockSizeBytes + Zd35x2BlockSizeBytes ↔ i / Zd35x2BlockSizeBytes = id
  have hsize : Zd35x2BlockSizeBytes = 131072 := rfl
  rw [hsize]
  omega

theorem erase_refines {id : Nat} {answer : List UInt8} (hd : Represents memory bus d)
    (hfits : (DeviceCall.erase id).Fits kind d) (h : ((DeviceCall.erase id).run flash).Ends bus answer bus') :
    ((DeviceCall.erase id).serve d).2 = some answer ∧ Represents memory bus' ((DeviceCall.erase id).serve d).1 := by
  obtain ⟨hid, hnumber⟩ := hfits
  rcases Routine.ends_bind.mp h with ⟨_, bus₁, hcall, hpure⟩
  rcases Routine.ends_pure.mp hpure with ⟨rfl, rfl⟩
  have hrun := Routine.ends_mapError.mp hcall
  obtain ⟨hstart, hsize⟩ := eraseAddress_eq law.chipId hid
  rw [hstart, hsize] at hrun
  obtain ⟨-, bus₁, hkept, herase⟩ := asksOnce_ends law.chip law.idf.toGenericLaw (law.idfRange.erases _) hrun
  have herased := eraseBlock_ends law herase
  rw [hkept, Nat.mul_div_cancel id (show 0 < Zd35x2BlockSizeBytes by decide), hnumber] at herased
  obtain ⟨hbytes, hok⟩ := served_erase hd.geometry hd.faultFree hid
  refine ⟨hok, hd.geometry, hd.faultFree, ?_⟩
  rw [herased, hbytes, ← hd.bytes]
  rfl

/-! ## Runs -/

theorem call_refines {c : DeviceCall} {answer : List UInt8} (hd : Represents memory bus d) (hfits : c.Fits kind d)
    (h : (c.run flash).Ends bus answer bus') : (c.serve d).2 = some answer ∧ Represents memory bus' (c.serve d).1 := by
  cases c with
  | write id offset data => exact write_refines law hd hfits h
  | read id offset length => exact read_refines law hd hfits h
  | erase id => exact erase_refines law hd hfits h

end

def calls (flash : EspFlashRange σ) : List DeviceCall → Routine Error (Bus σ) (List (List UInt8))
  | [] => return []
  | c :: cs => do
    let answer ← c.run flash
    let answers ← calls flash cs
    return answer :: answers

def served (d : Sys.FlashMemory) : List DeviceCall → Sys.FlashMemory × List (Option (List UInt8))
  | [] => (d, [])
  | c :: cs => ((served (c.serve d).1 cs).1, (c.serve d).2 :: (served (c.serve d).1 cs).2)

/-- **The refinement.** -/
theorem calls_refine {flash : EspFlashRange σ} {memory : σ → Memory} {kind : ChipKind} (law : DeviceLaw flash memory kind)
    {bus bus' : Bus σ} {d : Sys.FlashMemory} (hd : Represents memory bus d) {cs : List DeviceCall}
    (hfits : Along (fun d c => (c.serve d).1) (fun d c => c.Fits kind d) d cs) {answers : List (List UInt8)}
    (h : (calls flash cs).Ends bus answers bus') :
    (served d cs).2 = answers.map some ∧ Represents memory bus' (served d cs).1 := by
  induction cs generalizing bus d answers with
  | nil =>
    rcases Routine.ends_pure.mp h with ⟨rfl, rfl⟩
    exact ⟨rfl, hd⟩
  | cons c cs ih =>
    rcases Routine.ends_bind.mp h with ⟨answer, bus₁, hcall, h₁⟩
    rcases Routine.ends_bind.mp h₁ with ⟨rest, bus₂, hrest, hpure⟩
    rcases Routine.ends_pure.mp hpure with ⟨rfl, rfl⟩
    obtain ⟨hanswer, hd'⟩ := call_refines law hd hfits.1 hcall
    obtain ⟨hanswers, hd''⟩ := ih hd' hfits.2 hrest
    exact ⟨congrArg₂ List.cons hanswer hanswers, hd''⟩

/-! ## A chip that accepts everything -/

/-- The chip that takes the number of a block for its address. -/
def byNumber (resets : Bool) : ChipKind := ⟨resets, fun block => block⟩

section
variable (resets : Bool)

theorem obedient_rangeLaw : RangeLaw (obedient resets).toEspFlash id (byNumber resets) where
  pageRead := fun _ _ _ _ => rfl
  blockErase := fun _ _ _ _ => rfl
  genericRead := fun plane offset length hfits bus bytes bus' h => by
    rcases Routine.ends_bind.mp h with ⟨r, bus₁, hasked, hdone⟩
    rcases Routine.ends_ofExcept.mp hdone with ⟨rfl, rfl⟩
    rcases Prod.mk.inj (Routine.ends_attempt.mp hasked) with ⟨hanswer, rfl⟩
    have hoffset : offset < 4096 := by
      rw [pageSize_eq] at hfits
      omega
    have hplane : (plane * 4096 + offset) / 4096 = plane ∧ (plane * 4096 + offset) % 4096 = offset := by omega
    have hbytes : bytes = readMem (bus.chip.cache ((plane * 4096 + offset) / 4096)) ((plane * 4096 + offset) % 4096) length :=
      (Except.ok.inj (Option.some.inj hanswer)).symm
    rw [hplane.1, hplane.2] at hbytes
    exact ⟨hbytes, rfl⟩

theorem obedient_idfRangeLaw : IdfRangeLaw (obedient resets) where
  reads := fun address length _ _ => asksOnce_onChip fun hinside => Or.inr ⟨rfl, hinside, fun _ => rfl, fun _ => rfl⟩
  erases := fun start => asksOnce_onChip fun hinside => by
    have hpos : 0 < Zd35x2BlockSizeBytes := by decide
    have hstart : start < Zd35x2CapacityBytes := Nat.lt_of_lt_of_le (Nat.lt_add_of_pos_right hpos) hinside
    exact Or.inl ⟨trivial, fun _ => Or.inr ⟨rfl, hstart, fun _ => rfl, fun _ => rfl⟩⟩

theorem obedient_law : DeviceLaw (obedient resets) id (byNumber resets) where
  chipId := rfl
  chip := obedient_chipLaw resets
  idf := obedient_idfLaw resets
  range := obedient_rangeLaw resets
  idfRange := obedient_idfRangeLaw resets

/-- Reading and erasing at an address of the chip. -/
theorem read_succeeds {address : Nat} (h : address ≤ Zd35x2CapacityBytes) (length : Nat) :
    (read (obedient resets).toEspFlash address length).Succeeds := by
  refine (Routine.Succeeds.ofExcept (page_ok h)).bind fun _ => ?_
  refine ((commonCommand_succeeds resets _).bind fun _ => pollWaitOip_succeeds resets).bind fun _ => ?_
  refine (Routine.Succeeds.ofExcept (cache_offset_ok address)).bind fun _ bus => ?_
  obtain ⟨bytes, bus', hread⟩ := commonCommand_succeeds resets _ bus
  exact ⟨bytes, bus', Script.ends_ask hread (Routine.ends_ofExcept.mpr ⟨rfl, rfl⟩)⟩

theorem eraseBlock_succeeds {start block : Nat} (h : addressToBlockOffset Zd35x2ChipId start = .ok block) :
    (eraseBlock (obedient resets).toEspFlash start).Succeeds := by
  refine (setWriteProtect_succeeds resets false).attempt.bind fun _ => (Routine.Succeeds.ofExcept h).bind fun _ => ?_
  exact (commonCommand_succeeds resets _).bind fun _ => pollWaitOip_succeeds resets

theorem readBlock_succeeds (aReadBlockId aReadBlockOffset aBufferSize : Nat)
    (h : aReadBlockId * Zd35x2PageSize + aReadBlockOffset + aBufferSize ≤ Zd35x2CapacityBytes) :
    (FlashMemory.readBlock (some (obedient resets)) aReadBlockId aReadBlockOffset aBufferSize).Succeeds := by
  intro bus
  have hcapacity : Zd35x2CapacityBytes < 2 ^ 32 := by decide
  have hscript : (obedient resets).espFlashRead (aReadBlockId * Zd35x2PageSize + aReadBlockOffset) aBufferSize =
      .ask (.read (aReadBlockId * Zd35x2PageSize + aReadBlockOffset) aBufferSize) .done := onChip_of_le h
  obtain ⟨bytes, bus', hread⟩ := read_succeeds resets ((Nat.le_add_right _ _).trans h) aBufferSize bus
  refine ⟨bytes, bus', Routine.ends_mapError.mpr ?_⟩
  rw [address_eq rfl (by omega), hscript]
  exact Script.ends_ask hread (Routine.ends_ofExcept.mpr ⟨rfl, rfl⟩)

theorem device_eraseBlock_succeeds (block : Nat) (h : block < Zd35x2CapacityBlocks)
    (haddress : addressToBlockOffset Zd35x2ChipId (block * Zd35x2BlockSizeBytes) = .ok block) :
    (FlashMemory.eraseBlock (some (obedient resets)) block).Succeeds := by
  intro bus
  have hinside : block * Zd35x2BlockSizeBytes + Zd35x2BlockSizeBytes ≤ Zd35x2CapacityBytes := by
    rw [← Nat.succ_mul]
    exact Nat.mul_le_mul_right _ h
  have hscript : (obedient resets).espFlashEraseRegion (block * Zd35x2BlockSizeBytes) Zd35x2BlockSizeBytes =
      .ask (.setChipWriteProtect false) fun _ => .ask (.eraseBlock (block * Zd35x2BlockSizeBytes)) .done :=
    onChip_of_le hinside
  have hid : (obedient resets).chipId = Zd35x2ChipId := rfl
  obtain ⟨hstart, hsize⟩ := eraseAddress_eq hid h
  obtain ⟨_, bus₁, hprotect⟩ := setWriteProtect_succeeds resets false bus
  obtain ⟨_, bus', herase⟩ := eraseBlock_succeeds resets haddress bus₁
  refine ⟨(), bus', Routine.ends_mapError.mpr ?_⟩
  rw [hstart, hsize, hscript]
  exact Script.ends_ask hprotect (Script.ends_ask herase (Routine.ends_ofExcept.mpr ⟨rfl, rfl⟩))

end

/-- A block is erased, some bytes of it are written, and read again with those behind them. -/
def eraseWriteAndRead : List DeviceCall := [.erase 3, .write 200 5 [0x2A, 0x2B], .read 200 5 4]

theorem calls_refine_eraseWriteAndRead : ∃ answers, ∃ bus' : Bus Memory,
    (calls (obedient true) eraseWriteAndRead).Ends (Bus.of blank) answers bus' ∧
      (served ⟨geometry, blank.array, fun _ => false, []⟩ eraseWriteAndRead).2 = answers.map some ∧
      Represents id bus' (served ⟨geometry, blank.array, fun _ => false, []⟩ eraseWriteAndRead).1 := by
  have herase : ((DeviceCall.erase 3).run (obedient true)).Succeeds :=
    (device_eraseBlock_succeeds true 3 (by decide) rfl).bind fun _ => .pure _
  have hwrite : ((DeviceCall.write 200 5 [0x2A, 0x2B]).run (obedient true)).Succeeds := by
    refine Routine.Succeeds.bind (fun bus => ?_) fun _ => .pure _
    exact ⟨(), writeBlock_succeeds true 200 5 (List.cons_ne_nil _ _) (by decide) bus⟩
  have hread : ((DeviceCall.read 200 5 4).run (obedient true)).Succeeds :=
    readBlock_succeeds true 200 5 4 (by decide)
  have hends : (calls (obedient true) eraseWriteAndRead).Succeeds :=
    herase.bind fun _ => (hwrite.bind fun _ => (hread.bind fun _ => (Routine.Succeeds.pure _).bind fun _ =>
      .pure _).bind fun _ => .pure _).bind fun _ => .pure _
  obtain ⟨answers, bus', hends⟩ := hends (Bus.of blank)
  have hfits : Along (fun d c => (c.serve d).1) (fun d c => c.Fits (byNumber true) d)
      ⟨geometry, blank.array, fun _ => false, []⟩ eraseWriteAndRead := by
    refine ⟨⟨by decide, rfl⟩, ⟨by decide, List.cons_ne_nil _ _, by decide, Or.inl rfl, fun i _ => ?_⟩,
      ⟨by decide, by decide, by decide⟩, trivial⟩
    rw [(served_erase (d := ⟨geometry, blank.array, fun _ => false, []⟩) rfl (fun _ => rfl) (by decide)).1]
    exact ite_self _
  exact ⟨answers, bus', hends, calls_refine (obedient_law true) ⟨rfl, fun _ => rfl, rfl⟩ hfits hends⟩

end Esp32Cam.Zd35
