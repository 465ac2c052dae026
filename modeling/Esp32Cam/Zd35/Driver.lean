/-
  Esp32Cam.Zd35.Driver — the operations of the ZD35 driver.

  The driver sends transactions over the bus and, where the chip takes its time, polls the
  OIP bit of its status register. What the chip answers is up to the chip. The functions of
  ESP-IDF that the driver calls, and that call it back, are scripts.

  The counter of the poll starts at one, is counted down and compared with the number of
  attempts from below, which it never reaches: the poll ends with the chip, or with an
  overflow of the counter. An operation keeps the bound on the status reads of its polls, returns,
  and reports a chip that stayed busy, exactly when the chip lets each of these polls end
  within the attempts (`bounded_iff`).
-/

import Esp32Cam.Lib.Routine
import Esp32Cam.Zd35.Addresses

namespace Esp32Cam.Zd35

open Lib

/-! ## The bus -/

def Zd35CommandGetFeatures : Nat := 0x0F
def Zd35CommandSetFeatures : Nat := 0x1F
def Zd35CommandPageRead : Nat := 0x13
def Zd35CommandProgramLoad : Nat := 0x02
def Zd35CommandProgramExecute : Nat := 0x10
def Zd35CommandBlockErase : Nat := 0xD8

def Zd35AddressBlockLock : Nat := 0xA0
def Zd35AddressStatus : Nat := 0xC0

def Zd35registerBlockLockTb : UInt8 := (1 : UInt8) <<< 2
def Zd35RegisterStatusOip : UInt8 := (1 : UInt8) <<< 0

def BLOCK_LOCK_UNLOCK_WRITE_ALL_BLOCKS : UInt8 := Zd35registerBlockLockTb

/-- `spi_flash_trans_t`, but for the fields that are zero throughout. -/
structure Transaction where
  command : Nat
  address : Nat
  addressBitlen : Nat
  mosiData : List UInt8
  misoLen : Nat
  deriving DecidableEq

/-- What a function of ESP-IDF asks for while it runs. -/
inductive Request where
  | command (transaction : Transaction)
  | waitIdle

def Request.Answer : Request → Type
  | .command _ => List UInt8
  | .waitIdle => Unit

inductive WriteRequest where
  | plain (request : Request)
  | setChipWriteProtect (writeProtect : Bool)
  | programPage (address : Nat) (buffer : List UInt8)

def WriteRequest.Answer : WriteRequest → Type
  | .plain request => request.Answer
  | .setChipWriteProtect _ => Unit
  | .programPage _ _ => Unit

/-- `esp_flash_t`: the chip at its host, and the generic functions of ESP-IDF. -/
structure EspFlash (σ : Type) where
  chipId : Nat
  commonCommand : Transaction → σ → Except EspErr (List UInt8) × σ
  genericSetWriteProtect : Bool → Script EspErr Request.Answer Unit
  genericRead : (address length : Nat) → Script EspErr Request.Answer (List UInt8)
  genericWrite : (buffer : List UInt8) → (address : Nat) → Script EspErr WriteRequest.Answer Unit

/-- The chip as the driver finds it. What has been sent, and the chips that a poll began with, are
    kept for the statements: no function reads them. -/
structure Bus (σ : Type) where
  chip : σ
  sent : List Transaction
  polled : List σ

variable {σ : Type}

def Bus.of (chip : σ) : Bus σ := ⟨chip, [], []⟩

def Bus.after (bus : Bus σ) (t : Transaction) (chip : σ) : Bus σ := { bus with chip := chip, sent := bus.sent ++ [t] }

/-! ## The driver -/

section
variable (flash : EspFlash σ)

def commonCommand (t : Transaction) : Routine EspErr (Bus σ) (List UInt8) :=
  Routine.step fun bus => ((flash.commonCommand t bus.chip).1, bus.after t (flash.commonCommand t bus.chip).2)

def getFeatures (registerAddress : Nat) : Transaction :=
  { command := Zd35CommandGetFeatures, address := registerAddress, addressBitlen := 8, mosiData := [], misoLen := 1 }

def performGetFeatures (registerAddress : Nat) : Routine EspErr (Bus σ) UInt8 := do
  let miso ← commonCommand flash (getFeatures registerAddress)
  return miso.headD 0

def setFeatures (registerAddress : Nat) (registerValue : UInt8) : Transaction :=
  { command := Zd35CommandSetFeatures, address := registerAddress, addressBitlen := 8, mosiData := [registerValue],
    misoLen := 0 }

/-- The address is the one of the block lock, whichever register is asked for. -/
def performSetFeatures (_registerAddress : Nat) (registerValue : UInt8) : Routine EspErr (Bus σ) (List UInt8) :=
  commonCommand flash (setFeatures Zd35AddressBlockLock registerValue)

def STATUS_REGISTER_OIP_POLL_ATTEMPTS : Nat := 8

def intMin : Int := -2147483648

/-- The loop of `poll_wait_oip` from the counter `i` on; below `intMin` there is no counter. -/
def pollLoop (i : Int) : Routine EspErr (Bus σ) Unit :=
  if i < STATUS_REGISTER_OIP_POLL_ATTEMPTS + 1 then do
    let registerValue ← performGetFeatures flash Zd35AddressStatus
    if registerValue &&& Zd35RegisterStatusOip = 0 then return ()
    else if h : intMin < i then pollLoop (i - 1) else Routine.stuck
  else Routine.ofExcept (.error .timeout)
termination_by (i - intMin).toNat
decreasing_by omega

def pollWaitOip : Routine EspErr (Bus σ) Unit := do
  Routine.step fun bus => (.ok (), { bus with polled := bus.polled ++ [bus.chip] })
  pollLoop flash 1

def waitIdle : Routine EspErr (Bus σ) Unit := pollWaitOip flash

def answer : (request : Request) → Routine EspErr (Bus σ) request.Answer
  | .command t => commonCommand flash t
  | .waitIdle => waitIdle flash

def setWriteProtect (writeProtect : Bool) : Routine EspErr (Bus σ) Unit := do
  let _ ← (performSetFeatures flash Zd35AddressBlockLock BLOCK_LOCK_UNLOCK_WRITE_ALL_BLOCKS).attempt
  let _ ← ((flash.genericSetWriteProtect writeProtect).run (answer flash)).attempt
  let _ ← performGetFeatures flash Zd35AddressBlockLock
  return ()

def performPageRead (pageAddress : Nat) : Routine EspErr (Bus σ) Unit := do
  let _ ← commonCommand flash { command := Zd35CommandPageRead, address := pageAddress, addressBitlen := 24,
                                mosiData := [], misoLen := 0 }
  pollWaitOip flash

def read (address length : Nat) : Routine EspErr (Bus σ) (List UInt8) := do
  let pageAddress ← Routine.ofExcept (addressToSpiPageAddress flash.chipId address)
  performPageRead flash pageAddress
  let cacheOffset ← Routine.ofExcept (addressToCacheOffset flash.chipId address)
  (flash.genericRead cacheOffset length).run (answer flash)

def eraseBlock (startAddress : Nat) : Routine EspErr (Bus σ) Unit := do
  let _ ← (setWriteProtect flash false).attempt
  let address ← Routine.ofExcept (addressToBlockOffset flash.chipId startAddress)
  let _ ← commonCommand flash { command := Zd35CommandBlockErase, address := address, addressBitlen := 24,
                                mosiData := [], misoLen := 0 }
  pollWaitOip flash

def programLoad (cacheOffset : Nat) (buffer : List UInt8) : Transaction :=
  { command := Zd35CommandProgramLoad, address := cacheOffset, addressBitlen := 16, mosiData := buffer, misoLen := 0 }

def programPage (buffer : List UInt8) (address : Nat) : Routine EspErr (Bus σ) Unit := do
  waitIdle flash
  let cacheOffset ← Routine.ofExcept (addressToCacheOffset flash.chipId address)
  let _ ← commonCommand flash (programLoad cacheOffset buffer)
  return ()

def programExecute (pageAddress : Nat) : Transaction :=
  { command := Zd35CommandProgramExecute, address := pageAddress, addressBitlen := 24, mosiData := [], misoLen := 0 }

def performProgramExecute (absoluteAddress : Nat) : Routine EspErr (Bus σ) Unit := do
  let pageAddress ← Routine.ofExcept (addressToSpiPageAddress flash.chipId absoluteAddress)
  let _ ← commonCommand flash (programExecute pageAddress)
  return ()

def answerWrite : (request : WriteRequest) → Routine EspErr (Bus σ) request.Answer
  | .plain request => answer flash request
  | .setChipWriteProtect writeProtect => setWriteProtect flash writeProtect
  | .programPage address buffer => programPage flash buffer address

def write (buffer : List UInt8) (address : Nat) : Routine EspErr (Bus σ) Unit := do
  (flash.genericWrite buffer address).run (answerWrite flash)
  performProgramExecute flash address
  pollWaitOip flash
  setWriteProtect flash true

end

/-! ## The poll -/

section
variable (flash : EspFlash σ)

/-- The chip answers a read of its status, and the answer shows an operation in progress. -/
def Busy (chip : σ) : Prop :=
  ∃ miso, (flash.commonCommand (getFeatures Zd35AddressStatus) chip).1 = .ok miso ∧
    miso.headD 0 &&& Zd35RegisterStatusOip ≠ 0

def polledOnce (chip : σ) : σ := (flash.commonCommand (getFeatures Zd35AddressStatus) chip).2

/-- The chip is busy in the first `n` answers to a poll that begins now. -/
def StaysBusy : Nat → σ → Prop
  | 0, _ => True
  | n + 1, chip => Busy flash chip ∧ StaysBusy n (polledOnce flash chip)

/-- The poll that begins with the chip reads the status at most as often as there are
    attempts; if the chip stays busy in all of them, it reports a timeout. -/
structure PollLaw (chip : σ) : Prop where
  reads : ((pollWaitOip flash).exec (Bus.of chip)).2.sent.length ≤ STATUS_REGISTER_OIP_POLL_ATTEMPTS
  timeout : StaysBusy flash STATUS_REGISTER_OIP_POLL_ATTEMPTS chip →
    ((pollWaitOip flash).exec (Bus.of chip)).1 = some (.error .timeout)

/-- One of the answers to the attempts is an error, or shows no operation in progress. -/
def EndsInTime (chip : σ) : Prop := ¬ StaysBusy flash STATUS_REGISTER_OIP_POLL_ATTEMPTS chip

end

section
variable {flash : EspFlash σ} {i : Int} {bus : Bus σ}

theorem exec_getFeatures (registerAddress : Nat) : (performGetFeatures flash registerAddress).exec bus =
    (some ((flash.commonCommand (getFeatures registerAddress) bus.chip).1.map (·.headD 0)),
      bus.after (getFeatures registerAddress) (flash.commonCommand (getFeatures registerAddress) bus.chip).2) := by
  rw [performGetFeatures, Routine.exec_bind, commonCommand, Routine.exec_step]
  cases (flash.commonCommand (getFeatures registerAddress) bus.chip).1 <;> rfl

def Bus.afterRead (flash : EspFlash σ) (bus : Bus σ) : Bus σ :=
  bus.after (getFeatures Zd35AddressStatus) (polledOnce flash bus.chip)

theorem length_sent_afterRead : (bus.afterRead flash).sent.length = bus.sent.length + 1 := by
  rw [Bus.afterRead, Bus.after, List.length_append, List.length_singleton]

/-- An answer that ends the poll. -/
theorem exec_pollLoop_of_not_busy (hi : i ≤ 8) (h : ¬ Busy flash bus.chip) :
    ∃ r, (pollLoop flash i).exec bus = (some r, bus.afterRead flash) := by
  rw [pollLoop, if_pos (by unfold STATUS_REGISTER_OIP_POLL_ATTEMPTS; omega), Routine.exec_bind, exec_getFeatures]
  cases hanswer : (flash.commonCommand (getFeatures Zd35AddressStatus) bus.chip).1 with
  | error e => exact ⟨.error e, rfl⟩
  | ok miso =>
    have hidle : miso.headD 0 &&& Zd35RegisterStatusOip = 0 := by_contra fun hne => h ⟨miso, hanswer, hne⟩
    refine ⟨.ok (), ?_⟩
    simp only [Except.map, if_pos hidle]
    rfl

/-- An answer that the poll goes on with. -/
theorem exec_pollLoop_of_busy (hi : i ≤ 8) (h : Busy flash bus.chip) : (pollLoop flash i).exec bus =
    if intMin < i then (pollLoop flash (i - 1)).exec (bus.afterRead flash) else (none, bus.afterRead flash) := by
  rw [pollLoop, if_pos (by unfold STATUS_REGISTER_OIP_POLL_ATTEMPTS; omega), Routine.exec_bind, exec_getFeatures]
  rcases h with ⟨miso, hanswer, hne⟩
  simp only [hanswer, Except.map, if_neg hne]
  split <;> rfl

theorem exec_pollLoop_cases (flash : EspFlash σ) (bus : Bus σ) (hi : i ≤ 8) :
    ((pollLoop flash i).exec bus).2 = bus.afterRead flash ∨
    intMin < i ∧ (pollLoop flash i).exec bus = (pollLoop flash (i - 1)).exec (bus.afterRead flash) := by
  by_cases h : Busy flash bus.chip
  · rw [exec_pollLoop_of_busy hi h]
    split
    · next hmin => exact Or.inr ⟨hmin, rfl⟩
    · exact Or.inl rfl
  · obtain ⟨r, hr⟩ := exec_pollLoop_of_not_busy hi h
    exact Or.inl (congrArg Prod.snd hr)

/-- What every read of the status keeps, the loop keeps. -/
theorem pollLoop_related {R : Bus σ → Bus σ → Prop} [IsPreorder (Bus σ) R] (hread : ∀ bus, R bus (bus.afterRead flash))
    {n : Nat} (hi : i ≤ 8) (hn : i - intMin ≤ n) : R (bus.afterRead flash) ((pollLoop flash i).exec bus).2 := by
  induction n generalizing i bus with
  | zero =>
    rcases exec_pollLoop_cases flash bus hi with hlast | ⟨hmin, -⟩
    · rw [hlast]
      exact Std.Refl.refl _
    · omega
  | succ n ih =>
    rcases exec_pollLoop_cases flash bus hi with hlast | ⟨-, hnext⟩
    · rw [hlast]
      exact Std.Refl.refl _
    · rw [hnext]
      exact IsTrans.trans _ _ _ (hread _) (ih (by omega) (by omega))

/-- More has been sent, in the same poll. -/
def Reads (bus bus' : Bus σ) : Prop := bus'.polled = bus.polled ∧ bus.sent.length ≤ bus'.sent.length

instance : IsPreorder (Bus σ) Reads where
  refl _ := ⟨rfl, Nat.le_refl _⟩
  trans _ _ _ h h' := ⟨h'.1.trans h.1, Nat.le_trans h.2 h'.2⟩

/-- The loop reads the status at least once, and is a part of one poll. -/
theorem pollLoop_reads (bus : Bus σ) (hi : i ≤ 8) : Reads (bus.afterRead flash) ((pollLoop flash i).exec bus).2 :=
  pollLoop_related (fun _ => ⟨rfl, length_sent_afterRead.ge.trans' (Nat.le_succ _)⟩) hi (Int.self_le_toNat _)

/-- A chip that answers the poll within `n` reads. -/
theorem pollLoop_within {n : Nat} (bus : Bus σ) (hi : i ≤ 8) (hn : n ≤ i - intMin + 1)
    (h : ¬ StaysBusy flash n bus.chip) :
    ((pollLoop flash i).exec bus).1 ≠ none ∧ ((pollLoop flash i).exec bus).2.sent.length ≤ bus.sent.length + n := by
  induction n generalizing i bus with
  | zero => exact absurd trivial h
  | succ n ih =>
    by_cases hbusy : Busy flash bus.chip
    · have hrest : ¬ StaysBusy flash n (bus.afterRead flash).chip := fun hrest => h ⟨hbusy, hrest⟩
      have hpos : 0 < n := Nat.pos_of_ne_zero fun h0 => hrest (h0 ▸ trivial)
      have hnext := ih (i := i - 1) (bus.afterRead flash) (by omega) (by omega) hrest
      rw [length_sent_afterRead] at hnext
      rw [exec_pollLoop_of_busy hi hbusy, if_pos (by omega)]
      exact ⟨hnext.1, by omega⟩
    · obtain ⟨r, hr⟩ := exec_pollLoop_of_not_busy hi hbusy
      rw [hr, length_sent_afterRead]
      exact ⟨Option.some_ne_none r, by omega⟩

/-- A chip that is still busy after `n` reads is asked again. -/
theorem pollLoop_beyond {n : Nat} (bus : Bus σ) (hi : i ≤ 8) (hn : n ≤ i - intMin) (h : StaysBusy flash n bus.chip) :
    bus.sent.length + n + 1 ≤ ((pollLoop flash i).exec bus).2.sent.length := by
  induction n generalizing i bus with
  | zero => exact length_sent_afterRead.ge.trans (pollLoop_reads bus hi).2
  | succ n ih =>
    have hnext := ih (i := i - 1) (bus.afterRead flash) (by omega) (by omega) h.2
    rw [length_sent_afterRead] at hnext
    rw [exec_pollLoop_of_busy hi h.1, if_pos (by omega)]
    omega

/-- A chip that stays busy until the counter has no value left below. -/
theorem pollLoop_stuck {n : Nat} (hi : i ≤ 8) (hmin : intMin ≤ i) (hn : i - intMin < n)
    (h : StaysBusy flash n bus.chip) : ((pollLoop flash i).exec bus).1 = none := by
  induction n generalizing i bus with
  | zero => omega
  | succ n ih =>
    rw [exec_pollLoop_of_busy hi h.1]
    split
    · exact ih (by omega) (by omega) (by omega) h.2
    · rfl

theorem exec_pollWaitOip : (pollWaitOip flash).exec bus =
    (pollLoop flash 1).exec { bus with polled := bus.polled ++ [bus.chip] } := rfl

theorem polled_pollWaitOip : ((pollWaitOip flash).exec bus).2.polled = bus.polled ++ [bus.chip] :=
  (pollLoop_reads { bus with polled := bus.polled ++ [bus.chip] } (by decide)).1

/-- A poll that the chip lets end in time returns. -/
theorem pollWaitOip_within (bus : Bus σ) (h : EndsInTime flash bus.chip) : ((pollWaitOip flash).exec bus).1 ≠ none ∧
    ((pollWaitOip flash).exec bus).2.sent.length ≤ bus.sent.length + STATUS_REGISTER_OIP_POLL_ATTEMPTS :=
  pollLoop_within (i := 1) { bus with polled := bus.polled ++ [bus.chip] } (by decide) (by decide) h

/-- **One poll.** -/
theorem pollLaw_iff (chip : σ) : PollLaw flash chip ↔ EndsInTime flash chip := by
  constructor
  · intro h hbusy
    have hbeyond := pollLoop_beyond (i := 1) ⟨chip, [], [chip]⟩ (by decide) (by decide) hbusy
    exact absurd (Nat.le_trans hbeyond h.reads) (by omega)
  · intro h
    refine ⟨?_, fun hbusy => absurd hbusy h⟩
    have hreads := (pollWaitOip_within (Bus.of chip) h).2
    rwa [Bus.of, List.length_nil, Nat.zero_add] at hreads

end

/-! ## The operations -/

inductive Operation where
  | read (address length : Nat)
  | eraseBlock (startAddress : Nat)
  | write (buffer : List UInt8) (address : Nat)

def Operation.run (flash : EspFlash σ) : Operation → Routine EspErr (Bus σ) Unit
  | .read address length => do
    let _ ← Zd35.read flash address length
    return ()
  | .eraseBlock startAddress => Zd35.eraseBlock flash startAddress
  | .write buffer address => Zd35.write flash buffer address

structure Bounded (flash : EspFlash σ) (operation : Operation) (chip : σ) : Prop where
  polls : ∀ began ∈ ((operation.run flash).exec (Bus.of chip)).2.polled, PollLaw flash began
  returns : ((operation.run flash).exec (Bus.of chip)).1 ≠ none
  /-- No success is reported if the chip stayed busy through a poll. -/
  busy : (∃ began ∈ ((operation.run flash).exec (Bus.of chip)).2.polled,
      StaysBusy flash STATUS_REGISTER_OIP_POLL_ATTEMPTS began) →
    ((operation.run flash).exec (Bus.of chip)).1 ≠ some (.ok ())

def Continues (bus bus' : Bus σ) : Prop := bus.polled ⊆ bus'.polled

instance : IsPreorder (Bus σ) Continues where
  refl _ := List.Subset.refl _
  trans _ _ _ := List.Subset.trans

def Overdue (flash : EspFlash σ) (bus : Bus σ) : Prop := ∃ began ∈ bus.polled, ¬ EndsInTime flash began

def Request.Within (P : Transaction → Prop) : Request → Prop
  | .command t => P t
  | .waitIdle => True

section
variable {flash : EspFlash σ} {R : Bus σ → Bus σ → Prop} {Stuck : Bus σ → Prop} {P : Transaction → Prop}
  (hcommand : ∀ t, P t → (commonCommand flash t).Upholds R Stuck) (hpoll : (pollWaitOip flash).Upholds R Stuck)

include hcommand hpoll

theorem answer_upholds (request : Request) (hwithin : request.Within P) : (answer flash request).Upholds R Stuck := by
  cases request with
  | command t => exact hcommand t hwithin
  | waitIdle => exact hpoll

theorem setWriteProtect_upholds [IsPreorder (Bus σ) R]
    (hset : P (setFeatures Zd35AddressBlockLock BLOCK_LOCK_UNLOCK_WRITE_ALL_BLOCKS))
    (hget : P (getFeatures Zd35AddressBlockLock)) {writeProtect : Bool}
    (hasks : (flash.genericSetWriteProtect writeProtect).Asks (Request.Within P)) :
    (setWriteProtect flash writeProtect).Upholds R Stuck := by
  have hgeneric := Script.upholds (answer_upholds hcommand hpoll) _ hasks
  have hfeatures : (performGetFeatures flash Zd35AddressBlockLock).Upholds R Stuck :=
    (hcommand _ hget).bind fun _ => Routine.Upholds.pure _
  refine (hcommand _ hset).attempt.bind fun _ => hgeneric.attempt.bind fun _ => ?_
  exact hfeatures.bind fun _ => Routine.Upholds.pure _

end

section
variable (flash : EspFlash σ)

theorem commonCommand_overdue (t : Transaction) : (commonCommand flash t).Upholds Continues (Overdue flash) :=
  Routine.Upholds.step fun bus => List.Subset.refl bus.polled

theorem pollWaitOip_overdue : (pollWaitOip flash).Upholds Continues (Overdue flash) := by
  constructor
  · intro bus
    rw [Continues, polled_pollWaitOip]
    exact List.subset_append_left _ _
  · intro bus hnone
    refine ⟨bus.chip, ?_, fun hends => (pollWaitOip_within bus hends).1 hnone⟩
    rw [polled_pollWaitOip]
    exact List.mem_append_right _ (List.mem_singleton_self _)

theorem answer_overdue (request : Request) : (answer flash request).Upholds Continues (Overdue flash) := by
  refine answer_upholds (P := fun _ => True) (fun t _ => commonCommand_overdue flash t) (pollWaitOip_overdue flash) _ ?_
  cases request <;> trivial

theorem script_overdue {α : Type} (script : Script EspErr Request.Answer α) :
    (script.run (answer flash)).Upholds Continues (Overdue flash) :=
  script.upholds (P := fun _ => True) (fun q _ => answer_overdue flash q) (script.asks_of_all fun _ => trivial)

theorem setWriteProtect_overdue (writeProtect : Bool) :
    (setWriteProtect flash writeProtect).Upholds Continues (Overdue flash) := by
  refine setWriteProtect_upholds (P := fun _ => True) (fun t _ => commonCommand_overdue flash t)
    (pollWaitOip_overdue flash) trivial trivial (Script.asks_of_all (fun q => ?_) _)
  cases q <;> trivial

theorem performPageRead_overdue (pageAddress : Nat) :
    (performPageRead flash pageAddress).Upholds Continues (Overdue flash) :=
  (commonCommand_overdue flash _).bind fun _ => pollWaitOip_overdue flash

theorem read_overdue (address length : Nat) : (read flash address length).Upholds Continues (Overdue flash) := by
  refine (Routine.Upholds.ofExcept _).bind fun _ => (performPageRead_overdue flash _).bind fun _ => ?_
  exact (Routine.Upholds.ofExcept _).bind fun _ => script_overdue flash _

theorem eraseBlock_overdue (startAddress : Nat) : (eraseBlock flash startAddress).Upholds Continues (Overdue flash) := by
  refine (setWriteProtect_overdue flash false).attempt.bind fun _ => (Routine.Upholds.ofExcept _).bind fun _ => ?_
  exact (commonCommand_overdue flash _).bind fun _ => pollWaitOip_overdue flash

theorem programPage_overdue (buffer : List UInt8) (address : Nat) :
    (programPage flash buffer address).Upholds Continues (Overdue flash) := by
  refine (pollWaitOip_overdue flash).bind fun _ => (Routine.Upholds.ofExcept _).bind fun _ => ?_
  exact (commonCommand_overdue flash _).bind fun _ => Routine.Upholds.pure _

theorem answerWrite_overdue (request : WriteRequest) : (answerWrite flash request).Upholds Continues (Overdue flash) := by
  cases request with
  | plain request => exact answer_overdue flash request
  | setChipWriteProtect writeProtect => exact setWriteProtect_overdue flash writeProtect
  | programPage address buffer => exact programPage_overdue flash buffer address

theorem performProgramExecute_overdue (absoluteAddress : Nat) :
    (performProgramExecute flash absoluteAddress).Upholds Continues (Overdue flash) := by
  refine (Routine.Upholds.ofExcept _).bind fun _ => ?_
  exact (commonCommand_overdue flash _).bind fun _ => Routine.Upholds.pure _

theorem write_overdue (buffer : List UInt8) (address : Nat) :
    (write flash buffer address).Upholds Continues (Overdue flash) := by
  have hgeneric := (flash.genericWrite buffer address).upholds (P := fun _ => True)
    (fun q _ => answerWrite_overdue flash q) (Script.asks_of_all (fun _ => trivial) _)
  refine hgeneric.bind fun _ => (performProgramExecute_overdue flash address).bind fun _ => ?_
  exact (pollWaitOip_overdue flash).bind fun _ => setWriteProtect_overdue flash true

theorem operation_overdue (operation : Operation) : (operation.run flash).Upholds Continues (Overdue flash) := by
  cases operation with
  | read address length => exact (read_overdue flash address length).bind fun _ => Routine.Upholds.pure _
  | eraseBlock startAddress => exact eraseBlock_overdue flash startAddress
  | write buffer address => exact write_overdue flash buffer address

end

/-- **Polls and operations are bounded** exactly as long as the chip lets the polls end in time. -/
theorem bounded_iff (flash : EspFlash σ) (chip : σ) : (PollLaw flash chip ↔ EndsInTime flash chip) ∧
    ∀ operation : Operation, Bounded flash operation chip ↔
      ∀ began ∈ ((operation.run flash).exec (Bus.of chip)).2.polled, EndsInTime flash began := by
  refine ⟨pollLaw_iff chip, fun operation => ?_⟩
  constructor
  · intro h began hbegan
    exact (pollLaw_iff began).mp (h.polls began hbegan)
  · intro h
    refine ⟨fun began hbegan => (pollLaw_iff began).mpr (h began hbegan), fun hnone => ?_, ?_⟩
    · obtain ⟨began, hbegan, hoverdue⟩ := (operation_overdue flash operation).stuck _ hnone
      exact hoverdue (h began hbegan)
    · rintro ⟨began, hbegan, hbusy⟩
      exact absurd hbusy (h began hbegan)

/-- A chip whose status shows an operation in progress, whenever it is read. -/
def busyForGood : EspFlash Unit where
  chipId := Zd35x2ChipId
  commonCommand := fun _ _ => (.ok [Zd35RegisterStatusOip], ())
  genericSetWriteProtect := fun _ => .done (.ok ())
  genericRead := fun _ _ => .done (.ok [])
  genericWrite := fun _ _ => .done (.ok ())

theorem busyForGood_staysBusy (n : Nat) : StaysBusy busyForGood n () := by
  induction n with
  | zero => trivial
  | succ n ih => exact ⟨⟨_, rfl, by decide⟩, ih⟩

/-- The poll of such a chip does not return. -/
theorem a_busy_chip_is_polled_for_good : ¬ PollLaw busyForGood () ∧
    ((pollWaitOip busyForGood).exec (Bus.of ())).1 = none := by
  have hnone : ((pollWaitOip busyForGood).exec (Bus.of ())).1 = none := by
    rw [exec_pollWaitOip]
    exact pollLoop_stuck (n := 2147483650) (by decide) (by decide) (by decide) (busyForGood_staysBusy _)
  refine ⟨fun h => ?_, hnone⟩
  have htimeout := h.timeout (busyForGood_staysBusy _)
  rw [hnone] at htimeout
  cases htimeout

end Esp32Cam.Zd35
