/-
  Esp32Cam.Cam.FrameSizeWrite — writes of the frame size and of the frame format, access by access.

  `setFieldValue` is the write with everything it does: the places of `kFrameSizeModeMap` it
  reads, the responses it sends, the camera it leaves. The search runs over one place more
  than the table has; `behind` is what lies there. Whatever it is, the answer is right and
  the camera comes up as it should; the place behind the table is read exactly for the sizes
  that are not in it (`write_is_total_iff`).

  A size is answered `ok` when it is stored, before the camera is initialized anew. So the
  index is below the limit and the frame its entry after every write, and what a read yields
  behind an accepted one is the size that was asked for, unless the index cannot be read
  back or the camera does not come up (`frame_size_within_limit`).
-/

import Mathlib.Data.List.GetD
import Esp32Cam.Lib.Run
import Esp32Cam.Cam.Ov2640

namespace Esp32Cam.Cam

open Esp32Cam.Lib

/-- What the system answers in a write: storing the index, reading it back, initializing the camera. -/
structure Answers where
  nvsSet : Bool := true
  nvsGet : Bool := true
  init : Bool := true
  deriving DecidableEq, Repr

structure Written where
  camera : Ov2640
  responses : List RequestResult
  /-- The places of `kFrameSizeModeMap` that are read. -/
  accesses : List Nat
  deriving DecidableEq, Repr

/-- The search of the table: the places it looks at, and the one it ends at. -/
def searchMode (behind frameSize : FrameSize) : List Nat → List Nat × Option Nat
  | [] => ([], none)
  | mode :: modes =>
    if kFrameSizeModeMap.getD mode behind = frameSize then ([mode], some mode)
    else (mode :: (searchMode behind frameSize modes).1, (searchMode behind frameSize modes).2)

namespace Ov2640

/-- Without the stored index the default is taken. -/
def reinit (c : Ov2640) (a : Answers) : Ov2640 :=
  { init { c with stored := if a.nvsGet then c.stored else none } { init := a.init } with stored := c.stored }

def setFieldValue (behind : FrameSize) (c : Ov2640) (a : Answers) (frameSize : FrameSize) : Written :=
  let (accesses, mapped) := searchMode behind frameSize (List.range (kFrameSizeModeMap.length + 1))
  match mapped with
  | some mode =>
    let resolutionLimit := pixformatToResolutionLimit c.pixformat
    if mode < resolutionLimit then
      if a.nvsSet then
        let camera := reinit { c with stored := some mode } a
        ⟨camera, [.ok], accesses ++ [camera.frameSize]⟩
      else ⟨c, [.storageError], accesses⟩
    else ⟨c, [.outOfRange], accesses ++ [resolutionLimit - 1]⟩
  | none => ⟨c, [.outOfRange], accesses⟩

def setFieldFrameFormat (c : Ov2640) (a : Answers) (frameFormat : Option Pixformat) : Written :=
  match frameFormat with
  | some pixformat =>
    let camera := reinit { c with pixformat } a
    ⟨camera, [.ok], [camera.frameSize]⟩
  | none => ⟨c, [.other], []⟩

end Ov2640

/-! ## The search -/

theorem kFrameSizeModeMap_nodup : kFrameSizeModeMap.Nodup := by decide

section
variable {behind frameSize : FrameSize} {modes rest : List Nat}

/-- A search that ends inside the places it is given looks at no other. -/
theorem searchMode_found (rest : List Nat) (h : ∃ mode ∈ modes, kFrameSizeModeMap.getD mode behind = frameSize) :
    ∃ mode ∈ modes, kFrameSizeModeMap.getD mode behind = frameSize ∧
      ∃ accesses, (∀ i ∈ accesses, i ∈ modes) ∧ searchMode behind frameSize (modes ++ rest) = (accesses, some mode) := by
  induction modes with
  | nil =>
    rcases h with ⟨mode, hmem, -⟩
    cases hmem
  | cons first modes ih =>
    rw [List.cons_append, searchMode]
    by_cases hfirst : kFrameSizeModeMap.getD first behind = frameSize
    · rw [if_pos hfirst]
      refine ⟨first, List.mem_cons_self, hfirst, [first], fun i hi => ?_, rfl⟩
      rw [List.mem_singleton.mp hi]
      exact List.mem_cons_self
    · have hlater : ∃ mode ∈ modes, kFrameSizeModeMap.getD mode behind = frameSize := by
        rcases h with ⟨mode, hmem, hmode⟩
        rcases List.mem_cons.mp hmem with rfl | hmem
        · exact absurd hmode hfirst
        · exact ⟨mode, hmem, hmode⟩
      rcases ih hlater with ⟨mode, hmem, hmode, accesses, hin, hsearch⟩
      rw [if_neg hfirst, hsearch]
      refine ⟨mode, List.mem_cons_of_mem first hmem, hmode, first :: accesses, fun i hi => ?_, rfl⟩
      rcases List.mem_cons.mp hi with rfl | hi
      · exact List.mem_cons_self
      · exact List.mem_cons_of_mem first (hin i hi)

/-- One that does not looks at all of them, and goes on. -/
theorem searchMode_not_found (h : ∀ mode ∈ modes, kFrameSizeModeMap.getD mode behind ≠ frameSize) :
    searchMode behind frameSize (modes ++ rest) =
      (modes ++ (searchMode behind frameSize rest).1, (searchMode behind frameSize rest).2) := by
  induction modes with
  | nil => rfl
  | cons first modes ih =>
    rw [List.cons_append, searchMode, if_neg (h first List.mem_cons_self),
      ih fun mode hmode => h mode (List.mem_cons_of_mem first hmode)]
    rfl

end

theorem mem_kFrameSizeModeMap_iff {behind frameSize : FrameSize} : frameSize ∈ kFrameSizeModeMap ↔
    ∃ mode ∈ List.range kFrameSizeModeMap.length, kFrameSizeModeMap.getD mode behind = frameSize := by
  constructor
  · intro h
    rcases List.mem_iff_getElem.mp h with ⟨mode, hlt, hmode⟩
    refine ⟨mode, List.mem_range.mpr hlt, ?_⟩
    rw [List.getD_eq_getElem _ _ hlt, hmode]
  · intro h
    rcases h with ⟨mode, hmem, hmode⟩
    rw [List.getD_eq_getElem _ _ (List.mem_range.mp hmem)] at hmode
    exact List.mem_iff_getElem.mpr ⟨mode, List.mem_range.mp hmem, hmode⟩

/-- A size of the table is found at its index, and the search stays inside the table. -/
theorem search_of_mem {frameSize : FrameSize} (h : frameSize ∈ kFrameSizeModeMap) (behind : FrameSize) :
    ∃ mode accesses, kFrameSizeModeMap[mode]? = some frameSize ∧ (∀ i ∈ accesses, i < kFrameSizeModeMap.length) ∧
      searchMode behind frameSize (List.range (kFrameSizeModeMap.length + 1)) = (accesses, some mode) := by
  rw [List.range_succ]
  rcases searchMode_found [kFrameSizeModeMap.length] (mem_kFrameSizeModeMap_iff.mp h) with
    ⟨mode, hmem, hmode, accesses, hin, hsearch⟩
  have hlt := List.mem_range.mp hmem
  refine ⟨mode, accesses, ?_, fun i hi => List.mem_range.mp (hin i hi), hsearch⟩
  rw [List.getElem?_eq_getElem hlt, ← hmode, List.getD_eq_getElem _ _ hlt]

/-- Any other size is looked for behind the table as well. -/
theorem search_of_not_mem {frameSize : FrameSize} (h : frameSize ∉ kFrameSizeModeMap) (behind : FrameSize) :
    ∃ mapped, (∀ mode, mapped = some mode → mode = kFrameSizeModeMap.length) ∧
      searchMode behind frameSize (List.range (kFrameSizeModeMap.length + 1)) =
        (List.range (kFrameSizeModeMap.length + 1), mapped) := by
  rw [List.range_succ, searchMode_not_found fun mode hmem hmode => h (mem_kFrameSizeModeMap_iff.mpr ⟨mode, hmem, hmode⟩)]
  by_cases hbehind : kFrameSizeModeMap.getD kFrameSizeModeMap.length behind = frameSize
  · refine ⟨some kFrameSizeModeMap.length, fun mode hmode => (Option.some_inj.mp hmode).symm, ?_⟩
    rw [searchMode, if_pos hbehind]
  · refine ⟨none, nofun, ?_⟩
    rw [searchMode, if_neg hbehind]
    rfl

theorem pixformatToResolutionLimit_le (pixformat : Pixformat) :
    0 < pixformatToResolutionLimit pixformat ∧ pixformatToResolutionLimit pixformat ≤ kFrameSizeModeMap.length := by
  cases pixformat
  · decide
  · decide

namespace Ov2640

/-! ## The camera behind a write -/

def WithinLimit (c : Ov2640) : Prop :=
  c.frameSize < pixformatToResolutionLimit c.pixformat ∧ kFrameSizeModeMap[c.frameSize]? = some c.frame

theorem init_withinLimit (c : Ov2640) (os : Os) : (c.init os).WithinLimit := by
  have hpixformat := init_pixformat c os
  have hlimit := pixformatToResolutionLimit_le c.pixformat
  have hlt : (c.init os).frameSize < pixformatToResolutionLimit c.pixformat := by
    have hload : c.cameraConfigLoad.pixformat = c.pixformat := by
      unfold cameraConfigLoad
      cases c.stored with
      | none => rfl
      | some frame => rfl
    unfold init
    dsimp only
    rw [hload]
    split
    · omega
    · omega
  refine ⟨by rwa [hpixformat], ?_⟩
  have hframe : (c.init os).frame = kFrameSizeModeMap.getD (c.init os).frameSize (-1, -1) := rfl
  have hin := Nat.lt_of_lt_of_le hlt hlimit.2
  rw [hframe, List.getD_eq_getElem _ _ hin, List.getElem?_eq_getElem hin]

theorem reinit_withinLimit (c : Ov2640) (a : Answers) : (c.reinit a).WithinLimit :=
  init_withinLimit { c with stored := if a.nvsGet then c.stored else none } { init := a.init }

/-- The size the camera comes up with where the index is not read back. -/
def defaultFrameSize (pixformat : Pixformat) : FrameSize :=
  kFrameSizeModeMap.getD (if kFramesizeDefault ≥ pixformatToResolutionLimit pixformat then
    pixformatToResolutionLimit pixformat - 1 else kFramesizeDefault) (-1, -1)

/-- What a read yields behind the store of a size. -/
def comesUp (c : Ov2640) (a : Answers) (frameSize : FrameSize) : Option FrameSize :=
  if a.init then some (if a.nvsGet then frameSize else defaultFrameSize c.pixformat) else none

theorem getFrameSize_reinit {c : Ov2640} {mode : Nat} {frameSize : FrameSize} (hstored : c.stored = some mode)
    (hlimit : mode < pixformatToResolutionLimit c.pixformat) (hmode : kFrameSizeModeMap[mode]? = some frameSize) (a : Answers) :
    (c.reinit a).getFrameSize = c.comesUp a frameSize := by
  have hinitialized : (c.reinit a).initialized = a.init := rfl
  rw [getFrameSize, hinitialized, comesUp]
  cases a.init with
  | false => rfl
  | true =>
    have hframe : ∀ os : Os, (c.reinit a).frame =
        (init { c with stored := if a.nvsGet then c.stored else none } os).frame := fun _ => rfl
    rw [if_pos rfl, if_pos rfl, hframe {}]
    cases a.nvsGet with
    | true =>
      rw [if_pos rfl, if_pos rfl, init_frame hstored hlimit, List.getD_eq_getElem?_getD, hmode, Option.getD_some]
    | false => rfl

/-! ## One write -/

def Supported (c : Ov2640) (frameSize : FrameSize) : Prop :=
  ∃ mode < pixformatToResolutionLimit c.pixformat, kFrameSizeModeMap[mode]? = some frameSize

structure Total (c : Ov2640) (a : Answers) (frameSize : FrameSize) (w : Written) : Prop where
  inTable : ∀ i ∈ w.accesses, i < kFrameSizeModeMap.length
  responses : w.responses.length = 1
  ok : w.responses = [.ok] ↔ c.Supported frameSize ∧ a.nvsSet = true
  outOfRange : w.responses = [.outOfRange] ↔ ¬ c.Supported frameSize
  unchanged : w.responses ≠ [.ok] → w.camera = c

section
variable {behind frameSize : FrameSize} {c : Ov2640} {a : Answers} {accesses : List Nat}

theorem supported_iff {mode : Nat} (hmode : kFrameSizeModeMap[mode]? = some frameSize) :
    c.Supported frameSize ↔ mode < pixformatToResolutionLimit c.pixformat := by
  constructor
  · intro h
    rcases h with ⟨other, hlimit, hother⟩
    have hlt := (List.getElem?_eq_some_iff.mp hother).1
    rwa [← (List.getElem?_inj hlt kFrameSizeModeMap_nodup).mp (hother.trans hmode.symm)]
  · intro h
    exact ⟨mode, h, hmode⟩

/-- The write of a size that the search finds in the table. -/
theorem setFieldValue_of_found {mode : Nat} (hmode : kFrameSizeModeMap[mode]? = some frameSize)
    (hin : ∀ i ∈ accesses, i < kFrameSizeModeMap.length)
    (hsearch : searchMode behind frameSize (List.range (kFrameSizeModeMap.length + 1)) = (accesses, some mode)) :
    Total c a frameSize (setFieldValue behind c a frameSize) := by
  have hsupported := supported_iff (c := c) hmode
  have hlimit := pixformatToResolutionLimit_le c.pixformat
  have hput : ∀ {j : Nat}, j < kFrameSizeModeMap.length → ∀ i ∈ accesses ++ [j], i < kFrameSizeModeMap.length := by
    intro j hj i hi
    rcases List.mem_append.mp hi with hi | hi
    · exact hin i hi
    · rwa [List.mem_singleton.mp hi]
  unfold setFieldValue
  rw [hsearch]
  dsimp only
  by_cases hlt : mode < pixformatToResolutionLimit c.pixformat
  · rw [if_pos hlt]
    have hyes := hsupported.mpr hlt
    cases hset : a.nvsSet with
    | true =>
      rw [if_pos rfl]
      have hreinit := reinit_withinLimit { c with stored := some mode } a
      exact
        { inTable := hput (List.getElem?_eq_some_iff.mp hreinit.2).1
          responses := rfl
          ok := iff_of_true rfl ⟨hyes, hset⟩
          outOfRange := iff_of_false nofun fun hno => hno hyes
          unchanged := fun hno => absurd rfl hno }
    | false =>
      rw [if_neg Bool.false_ne_true]
      exact
        { inTable := hin
          responses := rfl
          ok := iff_of_false nofun fun h => absurd (hset.symm.trans h.2) Bool.false_ne_true
          outOfRange := iff_of_false nofun fun hno => hno hyes
          unchanged := fun _ => rfl }
  · rw [if_neg hlt]
    have hno : ¬ c.Supported frameSize := fun h => hlt (hsupported.mp h)
    exact
      { inTable := hput (by omega)
        responses := rfl
        ok := iff_of_false nofun fun h => hno h.1
        outOfRange := iff_of_true rfl hno
        unchanged := fun _ => rfl }

/-- A write leaves the camera as it was, or takes it down and up with another index stored. -/
theorem setFieldValue_camera (behind : FrameSize) (c : Ov2640) (a : Answers) (frameSize : FrameSize) :
    (setFieldValue behind c a frameSize).camera = c ∨
      ∃ mode, (setFieldValue behind c a frameSize).camera = reinit { c with stored := some mode } a := by
  unfold setFieldValue
  generalize searchMode behind frameSize (List.range (kFrameSizeModeMap.length + 1)) = search
  rcases search with ⟨accesses, none | mode⟩
  · exact .inl rfl
  · dsimp only
    split
    · split
      · exact .inr ⟨mode, rfl⟩
      · exact .inl rfl
    · exact .inl rfl

/-- The write of any other size is answered as out of range, whatever lies behind the table. -/
theorem setFieldValue_of_not_mem (h : frameSize ∉ kFrameSizeModeMap) (behind : FrameSize) (c : Ov2640) (a : Answers) :
    (setFieldValue behind c a frameSize).camera = c ∧ (setFieldValue behind c a frameSize).responses = [.outOfRange] ∧
      kFrameSizeModeMap.length ∈ (setFieldValue behind c a frameSize).accesses := by
  rcases search_of_not_mem h behind with ⟨mapped, hmapped, hsearch⟩
  have hlast : kFrameSizeModeMap.length ∈ List.range (kFrameSizeModeMap.length + 1) := List.self_mem_range_succ
  unfold setFieldValue
  rw [hsearch]
  cases mapped with
  | none => exact ⟨rfl, rfl, hlast⟩
  | some mode =>
    rcases hmapped mode rfl with rfl
    dsimp only
    rw [if_neg (Nat.not_lt.mpr (pixformatToResolutionLimit_le c.pixformat).2)]
    exact ⟨rfl, rfl, List.mem_append_left _ hlast⟩

end

/-- **A write of the frame size** stays inside the table and answers as it should exactly for the sizes of the table. -/
theorem write_is_total_iff (behind : FrameSize) (c : Ov2640) (a : Answers) (frameSize : FrameSize) :
    Total c a frameSize (setFieldValue behind c a frameSize) ↔ frameSize ∈ kFrameSizeModeMap := by
  constructor
  · intro h
    by_contra hmem
    exact Nat.lt_irrefl _ (h.inTable _ (setFieldValue_of_not_mem hmem behind c a).2.2)
  · intro h
    rcases search_of_mem h behind with ⟨mode, accesses, hmode, hin, hsearch⟩
    exact setFieldValue_of_found hmode hin hsearch

/-- The size 1x1 is looked for behind the table. -/
theorem an_unknown_size_is_looked_for_behind_the_table :
    ¬ ∀ (behind : FrameSize) (c : Ov2640) (a : Answers) (frameSize : FrameSize),
      Total c a frameSize (setFieldValue behind c a frameSize) := by
  intro h
  have hmem : kFrameSizeModeMap.length ∈ (setFieldValue (0, 0) {} {} (1, 1)).accesses := by decide
  exact Nat.lt_irrefl _ ((h (0, 0) {} {} (1, 1)).inTable _ hmem)

/-! ## Runs -/

inductive Write where
  | frameSize (a : Answers) (frameSize : FrameSize)
  /-- `none` is the name of a format the camera does not have. -/
  | frameFormat (a : Answers) (frameFormat : Option Pixformat)
  deriving DecidableEq, Repr

def write (behind : FrameSize) (c : Ov2640) : Write → Written
  | .frameSize a frameSize => c.setFieldValue behind a frameSize
  | .frameFormat a frameFormat => c.setFieldFrameFormat a frameFormat

def step (behind : FrameSize) (c : Ov2640) (w : Write) : Ov2640 := (c.write behind w).camera

def start (stored : Option Nat) (a : Answers) : Ov2640 := reinit { stored } a

/-- What a read yields directly behind an accepted write of the frame size. -/
def ReadsBack (behind : FrameSize) (c : Ov2640) : Write → Prop
  | .frameSize a frameSize => (c.setFieldValue behind a frameSize).responses = [.ok] →
    (step behind c (.frameSize a frameSize)).getFrameSize = c.comesUp a frameSize
  | .frameFormat _ _ => True

theorem WithinLimit.step {behind : FrameSize} {c : Ov2640} (h : c.WithinLimit) (w : Write) : (c.step behind w).WithinLimit := by
  unfold Ov2640.step write
  cases w with
  | frameSize a frameSize =>
    dsimp only
    rcases setFieldValue_camera behind c a frameSize with hsame | ⟨mode, hcamera⟩
    · rw [hsame]
      exact h
    · rw [hcamera]
      exact reinit_withinLimit { c with stored := some mode } a
  | frameFormat a frameFormat =>
    cases frameFormat with
    | none => exact h
    | some pixformat => exact reinit_withinLimit { c with pixformat } a

theorem readsBack (behind : FrameSize) (c : Ov2640) (w : Write) : c.ReadsBack behind w := by
  cases w with
  | frameFormat a frameFormat => trivial
  | frameSize a frameSize =>
    intro hok
    by_cases hmem : frameSize ∈ kFrameSizeModeMap
    · rcases search_of_mem hmem behind with ⟨mode, accesses, hmode, hin, hsearch⟩
      rcases ((setFieldValue_of_found hmode hin hsearch).ok.mp hok) with ⟨hsupported, hset⟩
      have hlimit := (supported_iff hmode).mp hsupported
      have hcamera : step behind c (.frameSize a frameSize) = reinit { c with stored := some mode } a := by
        unfold step write
        dsimp only [setFieldValue]
        rw [hsearch]
        dsimp only
        rw [if_pos hlimit, if_pos hset]
      rw [hcamera]
      exact getFrameSize_reinit (c := { c with stored := some mode }) rfl hlimit hmode a
    · rw [(setFieldValue_of_not_mem hmem behind c a).2.1] at hok
      cases hok

/-- A write of a size of the table: accepted, with what a read yields then, or without an effect. -/
theorem setFieldValue_spec {frameSize : FrameSize} (hmem : frameSize ∈ kFrameSizeModeMap) (behind : FrameSize) (c : Ov2640)
    (a : Answers) :
    c.Supported frameSize ∧ a.nvsSet = true ∧ (c.setFieldValue behind a frameSize).responses = [.ok] ∧
        (c.setFieldValue behind a frameSize).camera.getFrameSize = c.comesUp a frameSize ∨
      ¬ (c.Supported frameSize ∧ a.nvsSet = true) ∧ (c.setFieldValue behind a frameSize).responses ≠ [.ok] ∧
        (c.setFieldValue behind a frameSize).camera = c := by
  rcases search_of_mem hmem behind with ⟨mode, accesses, hmode, hin, hsearch⟩
  have htotal := setFieldValue_of_found (c := c) (a := a) hmode hin hsearch
  by_cases h : c.Supported frameSize ∧ a.nvsSet = true
  · have hok := htotal.ok.mpr h
    exact .inl ⟨h.1, h.2, hok, readsBack behind c (.frameSize a frameSize) hok⟩
  · have hok := fun hok => h (htotal.ok.mp hok)
    exact .inr ⟨h, hok, htotal.unchanged hok⟩

theorem setFieldValue_pixformat (behind : FrameSize) (c : Ov2640) (a : Answers) (frameSize : FrameSize) :
    (c.setFieldValue behind a frameSize).camera.pixformat = c.pixformat := by
  rcases setFieldValue_camera behind c a frameSize with hsame | ⟨mode, hcamera⟩
  · rw [hsame]
  · rw [hcamera]
    exact init_pixformat { c with stored := if a.nvsGet then some mode else none } { init := a.init }

theorem Supported.mem {c : Ov2640} {frameSize : FrameSize} (h : c.Supported frameSize) : frameSize ∈ kFrameSizeModeMap := by
  rcases h with ⟨mode, -, hmode⟩
  exact List.mem_of_getElem? hmode

/-- The size that is read is one that can be written. -/
theorem WithinLimit.supported {c : Ov2640} (h : c.WithinLimit) {frameSize : FrameSize} (hread : c.getFrameSize = some frameSize) :
    c.Supported frameSize := by
  unfold getFrameSize at hread
  split at hread
  · rw [← Option.some_inj.mp hread]
    exact ⟨c.frameSize, h⟩
  · cases hread

/-- **The frame size stays within the limit.** Whatever is stored at first, and whatever the
storage and the camera answer, so it does behind every write; and behind an accepted one a
read yields the size that was asked for, if the camera comes up and the index is read back. -/
theorem frame_size_within_limit (behind : FrameSize) (stored : Option Nat) (a : Answers) (ws : List Write) :
    Always (step behind) WithinLimit (start stored a) ws ∧ Along (step behind) (ReadsBack behind) (start stored a) ws := by
  have halways : Always (step behind) WithinLimit (start stored a) ws :=
    always_of_step (fun c w h => h.step w) (reinit_withinLimit { stored } a) ws
  exact ⟨halways, halways.along fun c w _ => readsBack behind c w⟩

/-- The size 800x600 is accepted; then the camera does not come up, or the index is not read back. -/
theorem an_accepted_size_is_not_read_back :
    ((start none {}).setFieldValue (0, 0) { init := false } (800, 600)).responses = [.ok] ∧
      ((start none {}).setFieldValue (0, 0) { init := false } (800, 600)).camera.getFrameSize = none ∧
      ((start none {}).setFieldValue (0, 0) { nvsGet := false } (800, 600)).responses = [.ok] ∧
      ((start none {}).setFieldValue (0, 0) { nvsGet := false } (800, 600)).camera.getFrameSize = some (480, 320) := by
  decide

end Ov2640

end Esp32Cam.Cam
