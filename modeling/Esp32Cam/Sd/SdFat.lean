/-
  Esp32Cam.Sd.SdFat — the SD card: its host, its drive, and the file system on it.

  `sdFatInit` initializes the SDMMC host, the slot and the card, takes a drive of FatFs,
  registers it with the VFS and mounts it. It takes nothing back where it fails.
  `sdFatDeinit` does all of it again in reverse, but only if a drive has been taken
  (`pdrv`); and the host cannot be initialized twice.

  So an init that fails after the host and before the drive, as it does without a card, is
  the last one that could have succeeded: whatever is called afterwards, nothing brings
  the card back (`recoverable_iff`), and no parameter file is opened any more
  (`config_file_opens_iff`). Nothing else does that. What the parameters do with the card is
  a run of both (`configFileEnsureExists_run`).
-/

import Esp32Cam.Lib.Run

namespace Esp32Cam.Sd

open Esp32Cam.Lib

/-- `host` is ESP-IDF's own, `vfs` tells whether the mount point is registered, `workArea` whether
    FatFs has a file system object for the drive. The others are the static variables. -/
structure SdFat where
  host : Bool := false
  cardConfig : Bool := false
  pdrv : Option Nat := none
  sFatfs : Bool := false
  vfs : Bool := false
  workArea : Bool := false
  deriving DecidableEq, Repr

/-- What the hardware and the libraries answer in one `sdFatInit`, as far as it gets. -/
structure InitAnswers where
  hostInit : Bool
  initSlot : Bool
  cardInit : Bool
  /-- The first drive that is free. -/
  getDrive : Option Nat
  vfsRegister : Bool
  fMount : Bool
  fopen : Bool
  deriving DecidableEq, Repr

structure DeinitAnswers where
  fUnmount : Bool
  pinsDeinit : Bool
  deriving DecidableEq, Repr

namespace SdFat

/-! ## The code -/

def fopen (s : SdFat) (answer : Bool) : Bool := s.vfs && s.workArea && answer

def initializeSlot (s : SdFat) (a : InitAnswers) : SdFat × Bool :=
  if s.host || !a.hostInit then (s, false)
  else
    let s := { s with host := true }
    if !a.initSlot then (s, false) else ({ s with cardConfig := true }, a.cardInit)

/-- A mount point that is registered already is not an error, but leaves `sFatfs` as it was. -/
def mountFat (s : SdFat) (a : InitAnswers) : SdFat × Bool :=
  match a.getDrive with
  | none => (s, false)
  | some drive =>
    let s := { s with pdrv := some drive }
    if !s.vfs && !a.vfsRegister then (s, false)
    else
      let s := if s.vfs then s else { s with vfs := true, sFatfs := true }
      ({ s with workArea := s.sFatfs }, a.fMount)

def sdFatInit (s : SdFat) (a : InitAnswers) : SdFat × Bool :=
  match s.initializeSlot a with
  | (s, false) => (s, false)
  | (s, true) =>
    match s.mountFat a with
    | (s, false) => (s, false)
    | (s, true) => (s, s.fopen a.fopen)

def unmountFat (s : SdFat) (a : DeinitAnswers) : SdFat × Bool :=
  ({ s with workArea := false, vfs := false }, a.fUnmount && s.vfs)

def deinitializeSlot (s : SdFat) (a : DeinitAnswers) : SdFat × Bool :=
  ({ s with host := false }, s.host && a.pinsDeinit)

def sdFatStateReset (s : SdFat) : SdFat := { s with cardConfig := false, pdrv := none, sFatfs := false }

def sdFatStateIsReset (s : SdFat) : Bool := s.pdrv.isNone

def sdFatDeinit (s : SdFat) (a : DeinitAnswers) : SdFat × Bool :=
  if s.sdFatStateIsReset then (s, true)
  else
    let (s, unmounted) := s.unmountFat a
    let (s, deinitialized) := s.deinitializeSlot a
    (s.sdFatStateReset, unmounted && deinitialized)

/-- One attempt to open the file, and what the answers are if it fails. -/
structure Attempt where
  fopen : Bool
  deinit : DeinitAnswers
  init : InitAnswers
  deriving DecidableEq, Repr

/-- The attempts of `SdMemoryProvider::configFileEnsureExists`. -/
def openRetrying (s : SdFat) : List Attempt → SdFat × Bool
  | [] => (s, false)
  | a :: as => if s.fopen a.fopen then (s, true) else openRetrying ((s.sdFatDeinit a.deinit).1.sdFatInit a.init).1 as

/-- `last` are the answers of the call of `sdFatDeinit` behind two attempts. -/
def configFileEnsureExists (s : SdFat) (first second : Attempt) (last : DeinitAnswers) : SdFat × Bool :=
  match s.openRetrying [first, second] with
  | (s, true) => (s, true)
  | (s, false) => ((s.sdFatDeinit last).1, false)

/-! ## Runs -/

inductive Event where
  | init (a : InitAnswers)
  | deinit (a : DeinitAnswers)
  deriving DecidableEq, Repr

def step (s : SdFat) : Event → SdFat
  | .init a => (s.sdFatInit a).1
  | .deinit a => (s.sdFatDeinit a).1

/-- With the host initialized and no drive there is no way on and no way back. -/
def Wedged (s : SdFat) : Prop := s.host = true ∧ s.pdrv = none

/-- The init fails behind the host and before the drive. -/
def Halfway (a : InitAnswers) : Prop :=
  a.hostInit = true ∧ ¬ (a.initSlot = true ∧ a.cardInit = true ∧ a.getDrive.isSome = true)

/-- What needs a drive has one. -/
structure Sound (s : SdFat) : Prop where
  host : s.pdrv.isSome = true → s.host = true
  vfs : s.vfs = true → s.pdrv.isSome = true
  workArea : s.workArea = true → s.pdrv.isSome = true

/-- The event is the last init that could have succeeded. -/
def Fatal (s : SdFat) : Event → Prop
  | .init a => s.host = false ∧ Halfway a
  | .deinit _ => False

variable {s : SdFat}

theorem sdFatInit_of_host (a : InitAnswers) (h : s.host = true) : s.sdFatInit a = (s, false) := by
  rw [sdFatInit, initializeSlot, h]
  rfl

theorem mountFat_of_drive {a : InitAnswers} {drive : Nat} (h : a.getDrive = some drive) :
    (s.mountFat a).1.host = s.host ∧ (s.mountFat a).1.pdrv = some drive := by
  unfold mountFat
  rw [h]
  dsimp only
  split
  · exact ⟨rfl, rfl⟩
  · split <;> exact ⟨rfl, rfl⟩

theorem sdFatInit_of_slot {a : InitAnswers} {s' : SdFat} (h : s.initializeSlot a = (s', true)) :
    (s.sdFatInit a).1 = (s'.mountFat a).1 := by
  rw [sdFatInit, h]
  dsimp only
  rcases s'.mountFat a with ⟨s'', _ | _⟩ <;> rfl

theorem sdFatInit_of_no_slot {a : InitAnswers} {s' : SdFat} (h : s.initializeSlot a = (s', false)) :
    s.sdFatInit a = (s', false) := by
  rw [sdFatInit, h]

/-- What an init leaves, outcome by outcome. -/
theorem sdFatInit_cases (a : InitAnswers) (h : s.host = false) :
    (¬ Halfway a ∧ (s.sdFatInit a).1 = s) ∨
    (Halfway a ∧ ∃ cardConfig, (s.sdFatInit a).1 = { s with host := true, cardConfig := cardConfig }) ∨
    (¬ Halfway a ∧ (s.sdFatInit a).1.host = true ∧ (s.sdFatInit a).1.pdrv.isSome = true) := by
  by_cases hhost : a.hostInit = true
  · by_cases hslot : a.initSlot = true
    · by_cases hcard : a.cardInit = true
      · have hslotted : s.initializeSlot a = ({ s with host := true, cardConfig := true }, true) := by
          simp [initializeSlot, h, hhost, hslot, hcard]
        rw [sdFatInit_of_slot hslotted]
        cases hdrive : a.getDrive with
        | none =>
          refine Or.inr (Or.inl ⟨⟨hhost, fun hall => ?_⟩, true, ?_⟩)
          · rw [hdrive] at hall
            cases hall.2.2
          · rw [mountFat, hdrive]
        | some drive =>
          obtain ⟨hkept, hpdrv⟩ := mountFat_of_drive (s := { s with host := true, cardConfig := true }) hdrive
          refine Or.inr (Or.inr ⟨fun hhalfway => hhalfway.2 ⟨hslot, hcard, by rw [hdrive]; rfl⟩, hkept, ?_⟩)
          rw [hpdrv]
          rfl
      · have hno : s.initializeSlot a = ({ s with host := true, cardConfig := true }, false) := by
          simp [initializeSlot, h, hhost, hslot, hcard]
        rw [sdFatInit_of_no_slot hno]
        exact Or.inr (Or.inl ⟨⟨hhost, fun hall => hcard hall.2.1⟩, true, rfl⟩)
    · have hno : s.initializeSlot a = ({ s with host := true }, false) := by
        simp [initializeSlot, h, hhost, hslot]
      rw [sdFatInit_of_no_slot hno]
      exact Or.inr (Or.inl ⟨⟨hhost, fun hall => hslot hall.1⟩, s.cardConfig, rfl⟩)
  · have hno : s.initializeSlot a = (s, false) := by simp [initializeSlot, hhost]
    rw [sdFatInit_of_no_slot hno]
    exact Or.inl ⟨fun hhalfway => hhost hhalfway.1, rfl⟩

theorem sdFatDeinit_of_pdrv (d : DeinitAnswers) (h : s.pdrv.isSome = true) : (s.sdFatDeinit d).1 = {} := by
  have hset : ¬ s.sdFatStateIsReset = true := by
    rw [sdFatStateIsReset, Option.isNone_eq_false_iff.mpr h]
    exact Bool.false_ne_true
  rw [sdFatDeinit, if_neg hset]
  rfl

theorem sdFatDeinit_of_reset (d : DeinitAnswers) (h : s.pdrv = none) : s.sdFatDeinit d = (s, true) := by
  rw [sdFatDeinit, if_pos]
  rw [sdFatStateIsReset, h]
  rfl

/-! ## What every step keeps -/

theorem step_sound (e : Event) (h : s.Sound) : (s.step e).Sound := by
  cases e with
  | deinit d =>
    by_cases hdrive : s.pdrv.isSome = true
    · show (s.sdFatDeinit d).1.Sound
      rw [sdFatDeinit_of_pdrv d hdrive]
      exact ⟨fun h => (by cases h), fun h => (by cases h), fun h => (by cases h)⟩
    · show (s.sdFatDeinit d).1.Sound
      rw [sdFatDeinit_of_reset d (Option.not_isSome_iff_eq_none.mp hdrive)]
      exact h
  | init a =>
    show (s.sdFatInit a).1.Sound
    by_cases hhost : s.host = true
    · rw [sdFatInit_of_host a hhost]
      exact h
    · rcases sdFatInit_cases a (by simpa using hhost) with ⟨-, hsame⟩ | ⟨-, cardConfig, hhalf⟩ | ⟨-, hhost', hpdrv⟩
      · rw [hsame]
        exact h
      · rw [hhalf]
        exact ⟨fun _ => rfl, h.vfs, h.workArea⟩
      · exact ⟨fun _ => hhost', fun _ => hpdrv, fun _ => hpdrv⟩

/-- Only such an init wedges the driver. -/
theorem step_wedged (e : Event) (h : s.Sound) : (s.step e).Wedged ↔ s.Wedged ∨ Fatal s e := by
  cases e with
  | deinit d =>
    show (s.sdFatDeinit d).1.Wedged ↔ s.Wedged ∨ False
    rw [or_false]
    cases hdrive : s.pdrv with
    | none => rw [sdFatDeinit_of_reset d hdrive]
    | some drive =>
      rw [sdFatDeinit_of_pdrv d (by rw [hdrive]; rfl)]
      refine iff_of_false (fun hwedged => ?_) fun hwedged => ?_
      · cases hwedged.1
      · exact absurd (hdrive.symm.trans hwedged.2) (Option.some_ne_none drive)
  | init a =>
    show (s.sdFatInit a).1.Wedged ↔ s.Wedged ∨ (s.host = false ∧ Halfway a)
    by_cases hhost : s.host = true
    · rw [sdFatInit_of_host a hhost, or_iff_left]
      rintro ⟨hno, -⟩
      rw [hhost] at hno
      cases hno
    · have hno : s.host = false := by simpa using hhost
      have hnone : s.pdrv = none := Option.not_isSome_iff_eq_none.mp fun hdrive => hhost (h.host hdrive)
      have hfree : ¬ s.Wedged := fun hwedged => hhost hwedged.1
      rw [or_iff_right hfree, and_iff_right hno]
      rcases sdFatInit_cases a hno with ⟨hwhole, hsame⟩ | ⟨hhalf, cardConfig, hleft⟩ | ⟨hwhole, -, hpdrv⟩
      · rw [hsame]
        exact iff_of_false hfree hwhole
      · rw [hleft]
        exact iff_of_true ⟨rfl, hnone⟩ hhalf
      · refine iff_of_false (fun hwedged => ?_) hwhole
        rw [hwedged.2] at hpdrv
        cases hpdrv

/-- A run leaves the driver wedged exactly if it was, or one of its steps was fatal. -/
theorem run_wedged (es : List Event) (h : s.Sound) :
    ¬ (run step s es).Wedged ↔ ¬ s.Wedged ∧ Along step (fun s e => ¬ Fatal s e) s es := by
  induction es generalizing s with
  | nil => exact (and_iff_left trivial).symm
  | cons e es ih => rw [run_cons, ih (step_sound e h), step_wedged e h, not_or, and_assoc, Along]

theorem sound_initial : Sound {} := ⟨fun h => (by cases h), fun h => (by cases h), fun h => (by cases h)⟩

theorem run_sound (es : List Event) : (run step {} es).Sound :=
  (always_of_step (fun _ e h => step_sound e h) sound_initial es).last

/-! ## The way back -/

def allGood : InitAnswers := ⟨true, true, true, some 0, true, true, true⟩

theorem sdFatInit_allGood (hhost : s.host = false) (hvfs : s.vfs = false) : (s.sdFatInit allGood).2 = true ∧
    ∀ answer, (s.sdFatInit allGood).1.fopen answer = answer := by
  simp [sdFatInit, initializeSlot, mountFat, fopen, allGood, hhost, hvfs]

/-- Behind a deinit of a driver that is not wedged an init can succeed. -/
theorem reinit (d : DeinitAnswers) (h : s.Sound) (hfree : ¬ s.Wedged) :
    ((s.sdFatDeinit d).1.sdFatInit allGood).2 = true ∧
      ∀ answer, ((s.sdFatDeinit d).1.sdFatInit allGood).1.fopen answer = answer := by
  cases hdrive : s.pdrv with
  | none =>
    have hhost : s.host = false := by simpa using fun hhost => hfree ⟨hhost, hdrive⟩
    have hvfs : s.vfs = false := by
      rw [← Bool.not_eq_true]
      intro hvfs
      have hsome := h.vfs hvfs
      rw [hdrive] at hsome
      cases hsome
    rw [sdFatDeinit_of_reset d hdrive]
    exact sdFatInit_allGood hhost hvfs
  | some drive =>
    rw [sdFatDeinit_of_pdrv d (by rw [hdrive]; rfl)]
    exact sdFatInit_allGood rfl rfl

theorem Wedged.reinit (hwedged : s.Wedged) (d : DeinitAnswers) (a : InitAnswers) :
    (s.sdFatDeinit d).1.sdFatInit a = (s, false) := by
  rw [sdFatDeinit_of_reset d hwedged.2, sdFatInit_of_host a hwedged.1]

theorem fopen_wedged (h : s.Sound) (hwedged : s.Wedged) (answer : Bool) : s.fopen answer = false := by
  have hvfs : s.vfs = false := by
    rw [← Bool.not_eq_true]
    intro hvfs
    have hsome := h.vfs hvfs
    rw [hwedged.2] at hsome
    cases hsome
  rw [fopen, hvfs]
  rfl

/-- **Getting the card back.** -/
theorem recoverable_iff (es : List Event) :
    (∃ d a, (((run step {} es).sdFatDeinit d).1.sdFatInit a).2 = true) ↔ Along step (fun s e => ¬ Fatal s e) {} es := by
  have hfree : ¬ Wedged {} := fun h => by cases h.1
  rw [← and_iff_right (a := ¬ Wedged {}) (b := Along _ _ _ _) hfree, ← run_wedged es sound_initial]
  constructor
  · rintro ⟨d, a, hok⟩ hwedged
    rw [hwedged.reinit d a] at hok
    cases hok
  · intro h
    exact ⟨⟨true, true⟩, allGood, (reinit ⟨true, true⟩ (run_sound es) h).1⟩

/-! ## The parameter file -/

theorem openRetrying_wedged (h : s.Sound) (hwedged : s.Wedged) (as : List Attempt) :
    s.openRetrying as = (s, false) := by
  induction as with
  | nil => rfl
  | cons a as ih =>
    rw [openRetrying, fopen_wedged h hwedged, if_neg Bool.false_ne_true, hwedged.reinit, ih]

/-- A wedged driver stays as it is, and the file is not opened. -/
theorem configFileEnsureExists_wedged (h : s.Sound) (hwedged : s.Wedged) (first second : Attempt) (last : DeinitAnswers) :
    s.configFileEnsureExists first second last = (s, false) := by
  rw [configFileEnsureExists, openRetrying_wedged h hwedged]
  dsimp only
  rw [sdFatDeinit_of_reset last hwedged.2]

/-- What it does with the card are steps of a run. -/
theorem configFileEnsureExists_run (s : SdFat) (first second : Attempt) (last : DeinitAnswers) :
    ∃ es, (s.configFileEnsureExists first second last).1 = run step s es := by
  have hattempts : ∀ (as : List Attempt) (s : SdFat), ∃ es, (s.openRetrying as).1 = run step s es := by
    intro as
    induction as with
    | nil => exact fun _ => ⟨[], rfl⟩
    | cons a as ih =>
      intro s
      unfold openRetrying
      split
      · exact ⟨[], rfl⟩
      · obtain ⟨es, hes⟩ := ih ((s.sdFatDeinit a.deinit).1.sdFatInit a.init).1
        exact ⟨.deinit a.deinit :: .init a.init :: es, hes⟩
  obtain ⟨es, hes⟩ := hattempts [first, second] s
  unfold configFileEnsureExists
  generalize s.openRetrying [first, second] = result at hes
  rcases result with ⟨s', _ | _⟩
  · refine ⟨es ++ [.deinit last], ?_⟩
    rw [run_append, ← hes]
    rfl
  · exact ⟨es, hes⟩

/-- **The file of the parameters** can be opened again exactly as long as the card can be got back. -/
theorem config_file_opens_iff (es : List Event) :
    (∃ first second last, ((run step {} es).configFileEnsureExists first second last).2 = true) ↔
      Along step (fun s e => ¬ Fatal s e) {} es := by
  have hfree : ¬ Wedged {} := fun h => by cases h.1
  rw [← and_iff_right (a := ¬ Wedged {}) (b := Along _ _ _ _) hfree, ← run_wedged es sound_initial]
  constructor
  · rintro ⟨first, second, last, hok⟩ hwedged
    rw [configFileEnsureExists_wedged (run_sound es) hwedged] at hok
    cases hok
  · intro h
    refine ⟨⟨false, ⟨true, true⟩, allGood⟩, ⟨true, ⟨true, true⟩, allGood⟩, ⟨true, true⟩, ?_⟩
    have hopens := (reinit ⟨true, true⟩ (run_sound es) h).2 true
    have hclosed : (run step {} es).fopen false = false := Bool.and_false _
    rw [configFileEnsureExists, openRetrying, hclosed, if_neg Bool.false_ne_true, openRetrying, hopens]
    rfl

/-- Without a card in the first init. -/
example : Fatal {} (.init ⟨true, true, false, some 0, true, true, true⟩) := ⟨rfl, rfl, by decide⟩

end SdFat

end Esp32Cam.Sd
