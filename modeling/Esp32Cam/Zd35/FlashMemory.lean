/-
  Esp32Cam.Zd35.FlashMemory — `readBlock`, `writeBlock` and `eraseBlock` of the ZD35, and what is written.

  A write block is a page. The three functions hand a range to ESP-IDF, which hands it to
  the driver; for a write the driver has ESP-IDF load the range piece by piece, and executes
  once. The chip answers as it likes and fails what it likes, but a load and an execution
  that it accepts do what they are for.

  On erased pages a write that reports no error has stored the data, and nothing else,
  exactly when there are no data, or their address fits the 32 bits of an address and the
  data fit one execution (`writeBlock_written_iff`).
-/

import Esp32Cam.Lib.Word
import Esp32Cam.Sys.FlashMemory
import Esp32Cam.Zd35.Driver
import Esp32Cam.Zd35.PageCache

namespace Esp32Cam.Zd35

open Lib

variable {σ : Type}

/-! ## The code -/

def geometry : Sys.FlashMemoryGeometry where
  writeBlockSize := Zd35x2PageSize
  eraseBlockSize := Zd35x2BlockSizeBytes
  nEraseBlocks := Zd35x2CapacityBlocks
  writeBlockSize_pos := by decide
  eraseBlockSize_pos := by decide
  dvd := by decide
  writeBlockSize_lt := by decide
  addressable := by decide

/-- What ESP-IDF asks for while it reads, writes or erases a range. -/
inductive RangeRequest where
  | plain (request : Request)
  | setChipWriteProtect (writeProtect : Bool)
  | read (address length : Nat)
  | write (buffer : List UInt8) (address : Nat)
  | eraseBlock (startAddress : Nat)

def RangeRequest.Answer : RangeRequest → Type
  | .plain request => request.Answer
  | .setChipWriteProtect _ => Unit
  | .read _ _ => List UInt8
  | .write _ _ => Unit
  | .eraseBlock _ => Unit

/-- `esp_flash_t`, with the functions of ESP-IDF that call the driver. -/
structure EspFlashRange (σ : Type) extends EspFlash σ where
  espFlashRead : (address length : Nat) → Script EspErr RangeRequest.Answer (List UInt8)
  espFlashWrite : (buffer : List UInt8) → (address : Nat) → Script EspErr RangeRequest.Answer Unit
  espFlashEraseRegion : (start size : Nat) → Script EspErr RangeRequest.Answer Unit

def answerRange (flash : EspFlashRange σ) : (request : RangeRequest) → Routine EspErr (Bus σ) request.Answer
  | .plain request => answer flash.toEspFlash request
  | .setChipWriteProtect writeProtect => setWriteProtect flash.toEspFlash writeProtect
  | .read address length => read flash.toEspFlash address length
  | .write buffer address => write flash.toEspFlash buffer address
  | .eraseBlock startAddress => eraseBlock flash.toEspFlash startAddress

/-- None is the default-constructed geometry, whose sizes are zero. -/
def makeFlashMemoryGeometryFromEspFlash (espFlash : Option (EspFlashRange σ)) : Option Sys.FlashMemoryGeometry :=
  match espFlash with
  | none => none
  | some flash => if flash.chipId = Zd35x2ChipId then some geometry else none

def convertWriteBlockOffsetIntoAddress (g : Option Sys.FlashMemoryGeometry) (aWriteBlockOffset : Nat) : Nat :=
  u32 (aWriteBlockOffset * (g.map (·.writeBlockSize)).getD 0)

def convertEraseBlockOffsetIntoAddress (g : Option Sys.FlashMemoryGeometry) (aEraseBlockOffset : Nat) : Nat :=
  u32 (aEraseBlockOffset * (g.map (·.eraseBlockSize)).getD 0)

inductive Error where
  | uninitialized
  | fail
  | flashMemory (e : EspErr)

def writeBlock (espFlash : Option (EspFlashRange σ)) (aWriteBlockId aWriteBlockOffset : Nat)
    (aData : Option (List UInt8)) : Routine Error (Bus σ) Unit :=
  match espFlash, aData with
  | none, _ => Routine.ofExcept (.error .uninitialized)
  | some _, none => Routine.ofExcept (.error .fail)
  | some flash, some data =>
    ((flash.espFlashWrite data (u32 (convertWriteBlockOffsetIntoAddress (makeFlashMemoryGeometryFromEspFlash espFlash)
      aWriteBlockId + aWriteBlockOffset))).run (answerRange flash)).mapError .flashMemory

def FlashMemory.readBlock (espFlash : Option (EspFlashRange σ)) (aReadBlockId aReadBlockOffset aBufferSize : Nat) :
    Routine Error (Bus σ) (List UInt8) :=
  match espFlash with
  | none => Routine.ofExcept (.error .uninitialized)
  | some flash =>
    ((flash.espFlashRead (u32 (convertWriteBlockOffsetIntoAddress (makeFlashMemoryGeometryFromEspFlash espFlash)
      aReadBlockId + aReadBlockOffset)) aBufferSize).run (answerRange flash)).mapError .flashMemory

def FlashMemory.eraseBlock (espFlash : Option (EspFlashRange σ)) (aEraseBlockId : Nat) : Routine Error (Bus σ) Unit :=
  match espFlash with
  | none => Routine.ofExcept (.error .uninitialized)
  | some flash =>
    ((flash.espFlashEraseRegion (convertEraseBlockOffsetIntoAddress (makeFlashMemoryGeometryFromEspFlash espFlash)
      aEraseBlockId) (((makeFlashMemoryGeometryFromEspFlash espFlash).map (·.eraseBlockSize)).getD 0)).run
      (answerRange flash)).mapError .flashMemory

/-- The address of a place in a write block, where 32 bits are enough for it. -/
theorem address_eq {flash : EspFlashRange σ} {aWriteBlockId aWriteBlockOffset : Nat} (hid : flash.chipId = Zd35x2ChipId)
    (h : aWriteBlockId * Zd35x2PageSize + aWriteBlockOffset < 2 ^ 32) :
    u32 (convertWriteBlockOffsetIntoAddress (makeFlashMemoryGeometryFromEspFlash (some flash)) aWriteBlockId +
      aWriteBlockOffset) = aWriteBlockId * Zd35x2PageSize + aWriteBlockOffset := by
  have hgeometry : makeFlashMemoryGeometryFromEspFlash (some flash) = some geometry := if_pos hid
  have hblock : convertWriteBlockOffsetIntoAddress (some geometry) aWriteBlockId = aWriteBlockId * Zd35x2PageSize :=
    u32_of_lt (show aWriteBlockId * Zd35x2PageSize < 2 ^ 32 by omega)
  rw [hgeometry, hblock, u32_of_lt h]

/-- The address of an erase block, and its size. -/
theorem eraseAddress_eq {flash : EspFlashRange σ} {aEraseBlockId : Nat} (hid : flash.chipId = Zd35x2ChipId)
    (h : aEraseBlockId < Zd35x2CapacityBlocks) :
    convertEraseBlockOffsetIntoAddress (makeFlashMemoryGeometryFromEspFlash (some flash)) aEraseBlockId =
        aEraseBlockId * Zd35x2BlockSizeBytes ∧
      ((makeFlashMemoryGeometryFromEspFlash (some flash)).map (·.eraseBlockSize)).getD 0 = Zd35x2BlockSizeBytes := by
  have hgeometry : makeFlashMemoryGeometryFromEspFlash (some flash) = some geometry := if_pos hid
  have hcapacity : Zd35x2CapacityBlocks * Zd35x2BlockSizeBytes < 2 ^ 32 := by decide
  have hlt : aEraseBlockId * Zd35x2BlockSizeBytes < 2 ^ 32 :=
    (Nat.mul_lt_mul_of_pos_right h (by decide)).trans hcapacity
  rw [hgeometry]
  exact ⟨u32_of_lt hlt, rfl⟩

/-! ## The chip and ESP-IDF -/

/-- The commands that concern the array and the caches. -/
def Concerns (t : Transaction) : Prop :=
  t.command = Zd35CommandPageRead ∨ t.command = Zd35CommandProgramLoad ∨ t.command = Zd35CommandProgramExecute ∨
    t.command = Zd35CommandBlockErase

instance (t : Transaction) : Decidable (Concerns t) := inferInstanceAs (Decidable (_ ∨ _ ∨ _ ∨ _))

/-- A chip with a memory. It may answer and fail as it likes; what it accepts, it does. -/
structure ChipLaw (flash : EspFlash σ) (memory : σ → Memory) (resets : Bool) : Prop where
  load : ∀ cacheOffset buffer chip miso, (flash.commonCommand (programLoad cacheOffset buffer) chip).1 = .ok miso →
    memory (flash.commonCommand (programLoad cacheOffset buffer) chip).2 =
      (memory chip).programLoad resets cacheOffset buffer
  execute : ∀ page chip miso, (flash.commonCommand (programExecute page) chip).1 = .ok miso →
    memory (flash.commonCommand (programExecute page) chip).2 = (memory chip).programExecute page
  other : ∀ t chip, ¬ Concerns t → memory (flash.commonCommand t chip).2 = memory chip

/-- The script calls `program_page` for these pieces, one after the other, and stops at the first
    failure; what else it does does not concern the memory. -/
def Programs : Script EspErr WriteRequest.Answer Unit → List (Nat × List UInt8) → Prop
  | .done (.ok _), ps => ps = []
  | .done (.error _), _ => True
  | .ask (.plain request) next, ps => request.Within (¬ Concerns ·) ∧ ∀ a, Programs (next a) ps
  | .ask (.setChipWriteProtect _) next, ps => ∀ a, Programs (next a) ps
  | .ask (.programPage address buffer) next, ps =>
    (∀ e, next (.error e) = .done (.error e)) ∧
      ∃ rest, ps = (address, buffer) :: rest ∧ Programs (next (.ok ())) rest

def RangeRequest.Harmless : RangeRequest → Prop
  | .plain request => request.Within (¬ Concerns ·)
  | .setChipWriteProtect _ => True
  | .read _ _ | .write _ _ | .eraseBlock _ => False

def RangeRequest.OnChip : RangeRequest → Prop
  | .plain _ | .setChipWriteProtect _ => True
  | .read address length => address + length ≤ Zd35x2CapacityBytes
  | .write buffer address => address + buffer.length ≤ Zd35x2CapacityBytes
  | .eraseBlock startAddress => startAddress < Zd35x2CapacityBytes

/-- The script gets to this request once, if it does not fail before, and ends with the answer. Its range is on
    the chip then. -/
def AsksOnce (request : RangeRequest) : Script EspErr RangeRequest.Answer request.Answer → Prop
  | .done (.ok _) => False
  | .done (.error _) => True
  | .ask q next => (q.Harmless ∧ ∀ a, AsksOnce request (next a)) ∨
      ∃ h : request = q, request.OnChip ∧ (∀ e, next (.error e) = .done (.error e)) ∧ ∀ a, next (.ok a) = .done (.ok (h ▸ a))

/-- What the generic functions of ESP-IDF do. -/
structure GenericLaw (flash : EspFlash σ) : Prop where
  writeProtect : ∀ b, (flash.genericSetWriteProtect b).Asks (Request.Within (¬ Concerns ·))
  /-- The generic write splits the range at the page boundaries, and calls `program_page` once a piece. -/
  splits : ∀ buffer address, Programs (flash.genericWrite buffer address) (pieces address buffer)

structure IdfLaw (flash : EspFlashRange σ) : Prop extends GenericLaw flash.toEspFlash where
  /-- Where there is nothing to write, nothing is written. -/
  nothing : ∀ address, (flash.espFlashWrite [] address).Asks RangeRequest.Harmless
  /-- The driver is called with the whole range, and once. -/
  writes : ∀ buffer address, buffer ≠ [] → AsksOnce (.write buffer address) (flash.espFlashWrite buffer address)

/-! ## What a write does to the memory -/

def Keeps (memory : σ → Memory) (bus bus' : Bus σ) : Prop := memory bus'.chip = memory bus.chip

instance (memory : σ → Memory) : IsPreorder (Bus σ) (Keeps memory) where
  refl _ := rfl
  trans _ _ _ h h' := h'.trans h

section
variable {flash : EspFlash σ} {memory : σ → Memory} {resets : Bool} (hchip : ChipLaw flash memory resets)
  (hidf : GenericLaw flash) {bus bus' : Bus σ}

section
include hchip

theorem commonCommand_keeps (t : Transaction) (ht : ¬ Concerns t) :
    (commonCommand flash t).Upholds (Keeps memory) fun _ => True :=
  Routine.Upholds.step fun bus => hchip.other t bus.chip ht

theorem pollWaitOip_keeps : (pollWaitOip flash).Upholds (Keeps memory) fun _ => True := by
  have hread : ∀ bus : Bus σ, Keeps memory bus (bus.afterRead flash) := fun bus => hchip.other _ bus.chip (by decide)
  refine ⟨fun bus => ?_, fun _ _ => trivial⟩
  exact IsTrans.trans _ _ _ (hread { bus with polled := bus.polled ++ [bus.chip] })
    (pollLoop_related (i := 1) hread (by decide) (Int.self_le_toNat _))

theorem answer_keeps (request : Request) (h : request.Within (¬ Concerns ·)) :
    (answer flash request).Upholds (Keeps memory) fun _ => True :=
  answer_upholds (commonCommand_keeps hchip) (pollWaitOip_keeps hchip) request h

end

include hchip hidf

theorem setWriteProtect_keeps (writeProtect : Bool) :
    (setWriteProtect flash writeProtect).Upholds (Keeps memory) fun _ => True :=
  setWriteProtect_upholds (commonCommand_keeps hchip) (pollWaitOip_keeps hchip) (by decide) (by decide)
    (hidf.writeProtect writeProtect)

omit hidf in
theorem programPage_ends {buffer : List UInt8} {address : Nat} (h : (programPage flash buffer address).Ends bus () bus') :
    memory bus'.chip = (memory bus.chip).loadPiece resets (address, buffer) := by
  rcases Routine.ends_bind.mp h with ⟨_, bus₁, hidle, h₁⟩
  rcases Routine.ends_bind.mp h₁ with ⟨cacheOffset, bus₂, hoffset, h₂⟩
  rcases Routine.ends_bind.mp h₂ with ⟨miso, bus₃, hload, hpure⟩
  rcases Routine.ends_ofExcept.mp hoffset with ⟨hconverted, rfl⟩
  rcases of_cache_offset_ok hconverted with ⟨-, rfl⟩
  rcases Routine.ends_pure.mp hpure with ⟨-, rfl⟩
  rcases Prod.mk.inj (Routine.ends_step.mp hload) with ⟨hmiso, rfl⟩
  have hkept := (pollWaitOip_keeps hchip).related bus
  rw [show (pollWaitOip flash).exec bus = _ from hidle] at hkept
  exact (hchip.load _ _ _ _ hmiso).trans (congrArg (Memory.programLoad resets · _ buffer) hkept)

omit hidf in
theorem performProgramExecute_ends {address : Nat} (h : (performProgramExecute flash address).Ends bus () bus') :
    flash.chipId = Zd35x2ChipId ∧ memory bus'.chip = (memory bus.chip).programExecute (address / Zd35x2PageSize) := by
  rcases Routine.ends_bind.mp h with ⟨page, bus₁, hpage, h₁⟩
  rcases Routine.ends_bind.mp h₁ with ⟨miso, bus₂, hcommand, hpure⟩
  rcases Routine.ends_ofExcept.mp hpage with ⟨hconverted, rfl⟩
  rcases of_page_ok hconverted with ⟨hid, rfl⟩
  rcases Routine.ends_pure.mp hpure with ⟨-, rfl⟩
  rcases Prod.mk.inj (Routine.ends_step.mp hcommand) with ⟨hmiso, rfl⟩
  exact ⟨hid, hchip.execute _ _ _ hmiso⟩

/-- Each call of `program_page` that succeeds loads its piece. -/
theorem programs_ends {script : Script EspErr WriteRequest.Answer Unit} {ps : List (Nat × List UInt8)}
    (hprograms : Programs script ps) (h : (script.run (answerWrite flash)).Ends bus () bus') :
    memory bus'.chip = (memory bus.chip).loadPieces resets ps := by
  induction script generalizing ps bus with
  | done r =>
    rcases Routine.ends_ofExcept.mp h with ⟨rfl, rfl⟩
    obtain rfl : ps = [] := hprograms
    rfl
  | ask q next ih =>
    rcases Routine.ends_bind.mp h with ⟨r, bus₁, hasked, h⟩
    rw [Routine.ends_attempt] at hasked
    cases q with
    | plain request =>
      have hkept := (answer_keeps hchip request hprograms.1).related bus
      rw [show (answer flash request).exec bus = _ from hasked] at hkept
      exact (ih r (hprograms.2 r) h).trans (congrArg (Memory.loadPieces resets · ps) hkept)
    | setChipWriteProtect writeProtect =>
      have hkept := (setWriteProtect_keeps hchip hidf writeProtect).related bus
      rw [show (setWriteProtect flash writeProtect).exec bus = _ from hasked] at hkept
      exact (ih r (hprograms r) h).trans (congrArg (Memory.loadPieces resets · ps) hkept)
    | programPage address buffer =>
      obtain ⟨hstops, rest, rfl, hrest⟩ := hprograms
      cases r with
      | error e =>
        rw [hstops e] at h
        rcases Routine.ends_ofExcept.mp h with ⟨herror, -⟩
        cases herror
      | ok _ =>
        have hpiece := programPage_ends hchip hasked
        exact (ih _ hrest h).trans (congrArg (Memory.loadPieces resets · rest) hpiece)

/-- A write of the driver that succeeds: all pieces are loaded, and the first page is executed. -/
theorem write_ends {buffer : List UInt8} {address : Nat} (h : (write flash buffer address).Ends bus () bus') :
    flash.chipId = Zd35x2ChipId ∧ memory bus'.chip =
      ((memory bus.chip).loadPieces resets (pieces address buffer)).programExecute (address / Zd35x2PageSize) := by
  rcases Routine.ends_bind.mp h with ⟨_, bus₁, hload, h₁⟩
  rcases Routine.ends_bind.mp h₁ with ⟨_, bus₂, hexecute, h₂⟩
  rcases Routine.ends_bind.mp h₂ with ⟨_, bus₃, hpoll, hprotect⟩
  obtain ⟨hid, hexecuted⟩ := performProgramExecute_ends hchip hexecute
  have hloaded := programs_ends hchip hidf (hidf.splits buffer address) hload
  have hpolled := (pollWaitOip_keeps hchip).related bus₂
  have hprotected := (setWriteProtect_keeps hchip hidf true).related bus₃
  rw [hpoll] at hpolled
  rw [hprotect] at hprotected
  refine ⟨hid, ?_⟩
  calc memory bus'.chip = memory bus₃.chip := hprotected
    _ = memory bus₂.chip := hpolled
    _ = (memory bus₁.chip).programExecute (address / Zd35x2PageSize) := hexecuted
    _ = _ := by rw [hloaded]

end

/-! ## What ESP-IDF does around the driver -/

section
variable {flash : EspFlashRange σ} {memory : σ → Memory} {resets : Bool}
  (hchip : ChipLaw flash.toEspFlash memory resets) (hidf : GenericLaw flash.toEspFlash) {bus bus' : Bus σ}
include hchip hidf

theorem answerRange_keeps (request : RangeRequest) (h : request.Harmless) :
    (answerRange flash request).Upholds (Keeps memory) fun _ => True := by
  cases request with
  | plain request => exact answer_keeps hchip request h
  | setChipWriteProtect writeProtect => exact setWriteProtect_keeps hchip hidf writeProtect
  | read _ _ | write _ _ | eraseBlock _ => exact absurd h id

theorem harmless_ends {α : Type} {script : Script EspErr RangeRequest.Answer α} {a : α}
    (hasks : script.Asks RangeRequest.Harmless) (h : (script.run (answerRange flash)).Ends bus a bus') :
    memory bus'.chip = memory bus.chip := by
  have hkept := (Script.upholds (answerRange_keeps hchip hidf) script hasks).related bus
  rwa [show (script.run (answerRange flash)).exec bus = _ from h] at hkept

/-- Up to the request nothing happens to the memory. -/
theorem asksOnce_ends {request : RangeRequest} {script : Script EspErr RangeRequest.Answer request.Answer}
    {a : request.Answer} (hasks : AsksOnce request script) (h : (script.run (answerRange flash)).Ends bus a bus') :
    request.OnChip ∧ ∃ bus₁, memory bus₁.chip = memory bus.chip ∧ (answerRange flash request).Ends bus₁ a bus' := by
  induction script generalizing bus with
  | done r =>
    rcases Routine.ends_ofExcept.mp h with ⟨rfl, -⟩
    exact absurd hasks id
  | ask q next ih =>
    rcases Routine.ends_bind.mp h with ⟨r, bus₁, hasked, h⟩
    rw [Routine.ends_attempt] at hasked
    rcases hasks with ⟨hharmless, hrest⟩ | ⟨rfl, honChip, hstops, hresult⟩
    · have hkept := (answerRange_keeps hchip hidf q hharmless).related bus
      rw [hasked] at hkept
      obtain ⟨honChip, bus₂, hmemory, hends⟩ := ih r (hrest r) h
      exact ⟨honChip, bus₂, hmemory.trans hkept, hends⟩
    · cases r with
      | error e =>
        rw [hstops e] at h
        rcases Routine.ends_ofExcept.mp h with ⟨herror, -⟩
        cases herror
      | ok a =>
        rw [hresult a] at h
        rcases Routine.ends_ofExcept.mp h with ⟨hok, rfl⟩
        cases hok
        exact ⟨honChip, bus, rfl, hasked⟩

end

/-! ## The contract -/

/-- **`writeBlock`** keeps its contract exactly for what fits one execution, at an address of 32 bits. -/
theorem writeBlock_written_iff {flash : EspFlashRange σ} {memory : σ → Memory} {resets : Bool}
    (hchip : ChipLaw flash.toEspFlash memory resets) (hidf : IdfLaw flash) {aWriteBlockId aWriteBlockOffset : Nat}
    {data : List UInt8} {bus bus' : Bus σ}
    (hok : (writeBlock (some flash) aWriteBlockId aWriteBlockOffset (some data)).Ends bus () bus')
    (herased : ErasedPages (memory bus.chip).array (aWriteBlockId * Zd35x2PageSize + aWriteBlockOffset) data.length) :
    Written (memory bus.chip).array (memory bus'.chip).array (aWriteBlockId * Zd35x2PageSize + aWriteBlockOffset) data ↔
      data = [] ∨ aWriteBlockId * Zd35x2PageSize + aWriteBlockOffset < 2 ^ 32 ∧
        OnePage resets
          ((memory bus.chip).cache ((aWriteBlockId * Zd35x2PageSize + aWriteBlockOffset) / Zd35x2PlaneSizeBytes))
          (aWriteBlockId * Zd35x2PageSize + aWriteBlockOffset) data := by
  have hwrite := Routine.ends_mapError.mp hok
  by_cases hne : data = []
  · subst hne
    have hkept := harmless_ends hchip hidf.toGenericLaw (hidf.nothing _) hwrite
    exact iff_of_true ⟨fun k hk => absurd hk (Nat.not_lt_zero k), fun i _ => congrArg (·.array i) hkept⟩ (Or.inl rfl)
  · obtain ⟨hinside, bus₁, hkept, hdriver⟩ := asksOnce_ends hchip hidf.toGenericLaw (hidf.writes _ _ hne) hwrite
    have hpos : 0 < data.length := List.length_pos_iff.mpr hne
    obtain ⟨hid, hmemory⟩ := write_ends hchip hidf.toGenericLaw hdriver
    rw [hkept] at hmemory
    rw [or_iff_right hne]
    by_cases hstart : aWriteBlockId * Zd35x2PageSize + aWriteBlockOffset < 2 ^ 32
    · rw [address_eq hid hstart] at hmemory hinside
      rw [hmemory, written_iff hne hinside herased]
      exact (and_iff_right hstart).symm
    · refine iff_of_false (fun h => ?_) fun h => hstart h.1
      have hstored := (h.stored 0 hpos).1
      have hcapacity : Zd35x2CapacityBytes < 2 ^ 32 := by decide
      omega

/-! ## A chip that accepts everything -/

def programEach : List (Nat × List UInt8) → Script EspErr WriteRequest.Answer Unit
  | [] => .done (.ok ())
  | (address, buffer) :: ps => .ask (.setChipWriteProtect false) fun
    | .error e => .done (.error e)
    | .ok _ => .ask (.programPage address buffer) fun
      | .error e => .done (.error e)
      | .ok _ => programEach ps

theorem programs_programEach (ps : List (Nat × List UInt8)) : Programs (programEach ps) ps := by
  induction ps with
  | nil => rfl
  | cons p ps ih =>
    intro a
    cases a with
    | error e => trivial
    | ok _ => exact ⟨fun e => rfl, ps, rfl, ih⟩

def Zd35CommandReadFromCache : Nat := 0x03

def readFromCache (cacheOffset length : Nat) : Transaction :=
  { command := Zd35CommandReadFromCache, address := cacheOffset, addressBitlen := 16, mosiData := [], misoLen := length }

/-- What ESP-IDF does of a range that ends on the chip. Irreducible, for `whnf` would count up to the end of it. -/
@[irreducible] def onChip {α : Type} (last : Nat) (script : Script EspErr RangeRequest.Answer α) :
    Script EspErr RangeRequest.Answer α :=
  if last ≤ Zd35x2CapacityBytes then script else .done (.error .invalidArg)

theorem onChip_of_le {α : Type} {last : Nat} {script : Script EspErr RangeRequest.Answer α}
    (h : last ≤ Zd35x2CapacityBytes) : onChip last script = script := by rw [onChip, if_pos h]

theorem asksOnce_onChip {request : RangeRequest} {last : Nat} {script : Script EspErr RangeRequest.Answer request.Answer}
    (h : last ≤ Zd35x2CapacityBytes → AsksOnce request script) : AsksOnce request (onChip last script) := by
  rw [onChip]
  split
  · next hlast => exact h hlast
  · trivial

def obedient (resets : Bool) : EspFlashRange Memory where
  chipId := Zd35x2ChipId
  commonCommand := fun t m =>
    (.ok (if t.command = Zd35CommandReadFromCache then
        readMem (m.cache (t.address / 4096)) (t.address % 4096) t.misoLen else [0]),
      if t.command = Zd35CommandProgramLoad then m.programLoad resets t.address t.mosiData
      else if t.command = Zd35CommandProgramExecute then m.programExecute t.address
      else if t.command = Zd35CommandPageRead then m.pageRead t.address
      else if t.command = Zd35CommandBlockErase then m.blockErase t.address else m)
  genericSetWriteProtect := fun _ => .ask .waitIdle fun r => .done r
  genericRead := fun cacheOffset length => .ask (.command (readFromCache cacheOffset length)) .done
  genericWrite := fun buffer address => programEach (pieces address buffer)
  espFlashRead := fun address length => onChip (address + length) (.ask (.read address length) .done)
  espFlashWrite := fun buffer address =>
    if buffer = [] then .done (.ok ()) else onChip (address + buffer.length) (.ask (.write buffer address) .done)
  espFlashEraseRegion := fun start size =>
    onChip (start + size) (.ask (.setChipWriteProtect false) fun _ => .ask (.eraseBlock start) .done)

section
variable (resets : Bool)

theorem obedient_chipLaw : ChipLaw (obedient resets).toEspFlash id resets where
  load := fun _ _ _ _ _ => rfl
  execute := fun _ _ _ _ => rfl
  other := fun t chip ht => by
    simp only [Concerns, not_or] at ht
    obtain ⟨hread, hload, hexecute, herase⟩ := ht
    exact (if_neg hload).trans ((if_neg hexecute).trans ((if_neg hread).trans (if_neg herase)))

theorem obedient_idfLaw : IdfLaw (obedient resets) where
  nothing := fun address => trivial
  writes := fun buffer address hne => by
    have hwrite : (obedient resets).espFlashWrite buffer address = _ := if_neg hne
    rw [hwrite]
    exact asksOnce_onChip fun hinside => Or.inr ⟨rfl, hinside, fun _ => rfl, fun _ => rfl⟩
  writeProtect := fun _ => ⟨trivial, fun _ => trivial⟩
  splits := fun buffer address => programs_programEach (pieces address buffer)

theorem commonCommand_succeeds (t : Transaction) : (commonCommand (obedient resets).toEspFlash t).Succeeds :=
  Routine.Succeeds.step fun _ => ⟨_, rfl⟩

theorem pollWaitOip_succeeds : (pollWaitOip (obedient resets).toEspFlash).Succeeds := by
  intro bus
  have hstatus : (obedient resets).commonCommand (getFeatures Zd35AddressStatus) bus.chip = (.ok [0], bus.chip) := rfl
  have hexec : (pollWaitOip (obedient resets).toEspFlash).exec bus =
      (some (.ok ()), { bus with polled := bus.polled ++ [bus.chip] }.after (getFeatures Zd35AddressStatus) bus.chip) := by
    rw [exec_pollWaitOip, pollLoop, if_pos (by decide), Routine.exec_bind, exec_getFeatures, hstatus]
    rfl
  exact ⟨(), _, hexec⟩

theorem setWriteProtect_succeeds (writeProtect : Bool) : (setWriteProtect (obedient resets).toEspFlash writeProtect).Succeeds := by
  have hgeneric : (((obedient resets).genericSetWriteProtect writeProtect).run (answer (obedient resets).toEspFlash)).Succeeds := by
    intro bus
    obtain ⟨_, bus', hidle⟩ := pollWaitOip_succeeds resets bus
    exact ⟨(), bus', Script.ends_ask hidle (Routine.ends_ofExcept.mpr ⟨rfl, rfl⟩)⟩
  refine (commonCommand_succeeds resets _).attempt.bind fun _ => hgeneric.attempt.bind fun _ => ?_
  exact ((commonCommand_succeeds resets _).bind fun _ => .pure _).bind fun _ => .pure _

theorem programPage_succeeds (buffer : List UInt8) (address : Nat) :
    (programPage (obedient resets).toEspFlash buffer address).Succeeds := by
  refine (pollWaitOip_succeeds resets).bind fun _ => (Routine.Succeeds.ofExcept (cache_offset_ok address)).bind fun _ => ?_
  exact (commonCommand_succeeds resets _).bind fun _ => .pure _

theorem programEach_succeeds (ps : List (Nat × List UInt8)) :
    ((programEach ps).run (answerWrite (obedient resets).toEspFlash)).Succeeds := by
  induction ps with
  | nil => exact Routine.Succeeds.ofExcept rfl
  | cons p ps ih =>
    intro bus
    obtain ⟨_, bus₁, hprotect⟩ := setWriteProtect_succeeds resets false bus
    obtain ⟨_, bus₂, hprogram⟩ := programPage_succeeds resets p.2 p.1 bus₁
    obtain ⟨_, bus₃, hrest⟩ := ih bus₂
    exact ⟨(), bus₃, Script.ends_ask hprotect (Script.ends_ask hprogram hrest)⟩

theorem write_succeeds (buffer : List UInt8) {address : Nat} (h : address ≤ Zd35x2CapacityBytes) :
    (write (obedient resets).toEspFlash buffer address).Succeeds := by
  have hexecute : (performProgramExecute (obedient resets).toEspFlash address).Succeeds :=
    (Routine.Succeeds.ofExcept (page_ok h)).bind fun _ => (commonCommand_succeeds resets _).bind fun _ => .pure _
  refine (programEach_succeeds resets _).bind fun _ => hexecute.bind fun _ => ?_
  exact (pollWaitOip_succeeds resets).bind fun _ => setWriteProtect_succeeds resets true

theorem writeBlock_succeeds (aWriteBlockId aWriteBlockOffset : Nat) {data : List UInt8} (hne : data ≠ [])
    (h : aWriteBlockId * Zd35x2PageSize + aWriteBlockOffset + data.length ≤ Zd35x2CapacityBytes) (bus : Bus Memory) :
    ∃ bus', (writeBlock (some (obedient resets)) aWriteBlockId aWriteBlockOffset (some data)).Ends bus () bus' := by
  have hcapacity : Zd35x2CapacityBytes < 2 ^ 32 := by decide
  have hscript : (obedient resets).espFlashWrite data (aWriteBlockId * Zd35x2PageSize + aWriteBlockOffset) =
      .ask (.write data (aWriteBlockId * Zd35x2PageSize + aWriteBlockOffset)) .done := (if_neg hne).trans (onChip_of_le h)
  obtain ⟨_, bus', hwrite⟩ := write_succeeds resets data ((Nat.le_add_right _ _).trans h) bus
  refine ⟨bus', Routine.ends_mapError.mpr ?_⟩
  rw [address_eq rfl (by omega), hscript]
  exact Script.ends_ask hwrite (Routine.ends_ofExcept.mpr ⟨rfl, rfl⟩)

end

def blank : Memory := ⟨fun _ => erased, fun _ _ => erased⟩

theorem writeBlock_written_iff_blank : ∃ bus' : Bus Memory,
    (writeBlock (some (obedient true)) 1 5 (some [0x2A])).Ends (Bus.of blank) () bus' ∧
      Written blank.array bus'.chip.array (1 * Zd35x2PageSize + 5) [0x2A] := by
  obtain ⟨bus', hok⟩ := writeBlock_succeeds true 1 5 (List.cons_ne_nil 0x2A []) (by decide) (Bus.of blank)
  have hfits : OnePage true (blank.cache 0) (1 * Zd35x2PageSize + 5) [0x2A] := by
    refine ⟨fun k hk hroom => ?_, fun k hk _ hcovered => ?_, fun h => by cases h⟩
    · obtain rfl : k = 0 := Nat.lt_one_iff.mp hk
      exact absurd hroom (by decide)
    · exact absurd hcovered (not_lt_covered_zero true _)
  exact ⟨bus', hok, (writeBlock_written_iff (obedient_chipLaw true) (obedient_idfLaw true) hok fun _ _ _ => rfl).mpr
    (Or.inr ⟨by decide, hfits⟩)⟩

/-- Of two bytes across a page boundary the second one is not written. -/
theorem a_second_page_is_not_written : ∃ bus' : Bus Memory,
    (writeBlock (some (obedient true)) 0 2047 (some [0, 0])).Ends (Bus.of blank) () bus' ∧
      ErasedPages blank.array (0 * Zd35x2PageSize + 2047) 2 ∧
      ¬ Written blank.array bus'.chip.array (0 * Zd35x2PageSize + 2047) [0, 0] := by
  obtain ⟨bus', hok⟩ := writeBlock_succeeds true 0 2047 (List.cons_ne_nil 0 [0]) (by decide) (Bus.of blank)
  refine ⟨bus', hok, fun _ _ _ => rfl, fun h => ?_⟩
  have hwrite := Routine.ends_mapError.mp hok
  rw [address_eq rfl (by decide)] at hwrite
  obtain ⟨-, bus₁, hkept, hdriver⟩ := asksOnce_ends (obedient_chipLaw true) (obedient_idfLaw true).toGenericLaw
    ((obedient_idfLaw true).writes _ _ (List.cons_ne_nil 0 [0])) hwrite
  have hmemory := (write_ends (obedient_chipLaw true) (obedient_idfLaw true).toGenericLaw hdriver).2
  rw [hkept] at hmemory
  have hsecond := (h.stored 1 (by decide)).2
  rw [show bus'.chip = _ from hmemory, array_written_behind (by decide)] at hsecond
  cases hsecond

end Esp32Cam.Zd35
