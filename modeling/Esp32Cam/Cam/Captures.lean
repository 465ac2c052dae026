/-
  Esp32Cam.Cam.Captures — the names of the files that photos and videos go to.

  A capture is named by the number of frames on the card (`countFrames`), in at most five
  characters, and its file is opened for writing, which leaves nothing of a file that has the name. FAT
  tells no upper from lower case, and keeps the names as they are given or in upper case,
  as it is configured. The paths of the recorders are these names below the mount point
  (`jpgPath_captureName`, `aviPath_captureName`).

  - `no_capture_overwrites`: as long as no frame is deleted, no other file is given the
    name of a capture, and the number has five digits, every capture gets a file of its own.
  - `a_deletion_costs_the_newest`: of any number of photos, delete one that is not the
    newest: the next photo is written over the newest.
-/

import Esp32Cam.Cam.RecFrame
import Esp32Cam.Lib.Run
import Mathlib

namespace Esp32Cam.Cam

open Esp32Cam.Lib

/-! ## Counting the frames -/

/-- `std::find_end`: the last place where the suffix begins. -/
def findEnd (s suffix : List Char) : Option Nat :=
  (List.range (s.length - suffix.length + 1)).reverse.find? fun i => (s.drop i).take suffix.length = suffix

def checkEndswith (aStr aSuffix : List Char) : Bool :=
  if 0 < aStr.length ∧ 0 < aSuffix.length ∧ aSuffix.length ≤ aStr.length then
    findEnd aStr aSuffix = some (aStr.length - aSuffix.length)
  else false

def frameSuffixes : List (List Char) :=
  [['.', 'j', 'p', 'g'], ['.', 'j', 'p', 'e', 'g'], ['.', 'J', 'P', 'G'], ['.', 'J', 'P', 'E', 'G'], ['.', 'a', 'v', 'i'],
    ['.', 'A', 'V', 'I']]

def frameCount (name : List Char) : Nat := (frameSuffixes.map fun suffix => (checkEndswith name suffix).toNat).sum

/-- `Storage::countFrames`, of a directory that can be opened. -/
def countFrames (names : List (List Char)) : Nat := (names.map frameCount).sum

/-! ## Naming the captures -/

def kNameMaxLen : Nat := 6

/-- `snprintf` of `%d`: a NUL ends what fits. -/
def captureName (aCount : Nat) : List Char := (Nat.toDigits 10 aCount).take (kNameMaxLen - 1)

inductive Kind where
  | photo
  | video
  deriving DecidableEq, Repr

def Kind.extension : Kind → List Char
  | .photo => ['.', 'j', 'p', 'g']
  | .video => ['.', 'a', 'v', 'i']

def fileName (kind : Kind) (aCount : Nat) : List Char := captureName aCount ++ kind.extension

theorem jpgPath_captureName (aCount : Nat) :
    jpgPath (captureName aCount) = kMountPoint ++ ['/'] ++ fileName .photo aCount := List.append_assoc _ _ _

theorem aviPath_captureName (aCount : Nat) :
    aviPath (captureName aCount) = kMountPoint ++ ['/'] ++ fileName .video aCount := List.append_assoc _ _ _

/-! ## The card -/

/-- `longNames`: the names are kept as they are given. `overwritten`: the captures that were written over a file. -/
structure Card where
  longNames : Bool
  files : List (List Char) := []
  overwritten : List (List Char) := []
  deriving DecidableEq, Repr

def sameName (a b : List Char) : Prop := a.map Char.toLower = b.map Char.toLower

instance : DecidableRel sameName := fun _ _ => inferInstanceAs (Decidable (_ = _))

namespace Card

def stored (c : Card) (name : List Char) : List Char := if c.longNames then name else name.map Char.toUpper

def create (c : Card) (name : List Char) : Card :=
  if c.files.any (sameName name) then c else { c with files := c.files ++ [c.stored name] }

def capture (c : Card) (name : List Char) : Card :=
  if c.files.any (sameName name) then { c with overwritten := c.overwritten ++ [name] } else c.create name

def remove (c : Card) (name : List Char) : Card := { c with files := c.files.filter (¬ sameName name ·) }

/-- A capture that can open its file; another file; a file that is deleted. -/
inductive Event where
  | capture (kind : Kind)
  | create (name : List Char)
  | remove (name : List Char)
  deriving DecidableEq, Repr

def step (c : Card) : Event → Card
  | .capture kind => c.capture (fileName kind (countFrames c.files))
  | .create name => c.create name
  | .remove name => c.remove name

/-- The captures on the card have numbers below the count. -/
def Numbered (c : Card) : Prop :=
  ∀ file ∈ c.files, ∀ kind n, n < 100000 → sameName (fileName kind n) file → n < countFrames c.files

def Orderly (c : Card) : Event → Prop
  | .capture _ => countFrames c.files < 100000
  | .create name => ∀ kind n, n < 100000 → ¬ sameName (fileName kind n) name
  | .remove name => ∀ file ∈ c.files, sameName name file → frameCount file = 0

end Card

/-! ## What is counted -/

section
variable {s suffix : List Char}

theorem findEnd_eq_iff (hle : suffix.length ≤ s.length) :
    findEnd s suffix = some (s.length - suffix.length) ↔ s.drop (s.length - suffix.length) = suffix := by
  have htake : (s.drop (s.length - suffix.length)).take suffix.length = s.drop (s.length - suffix.length) := by
    refine List.take_of_length_le ?_
    rw [List.length_drop]
    omega
  rw [findEnd, List.range_succ, List.reverse_append, List.reverse_singleton, List.singleton_append, List.find?_cons, htake]
  by_cases hsuffix : s.drop (s.length - suffix.length) = suffix
  · rw [decide_eq_true hsuffix]
    exact iff_of_true rfl hsuffix
  · rw [decide_eq_false hsuffix]
    refine iff_of_false (fun hbefore => ?_) hsuffix
    have hmem := List.mem_of_find?_eq_some hbefore
    rw [List.mem_reverse, List.mem_range] at hmem
    exact Nat.lt_irrefl _ hmem

theorem checkEndswith_iff : checkEndswith s suffix = true ↔ suffix ≠ [] ∧ suffix <:+ s := by
  unfold checkEndswith
  split
  · next h =>
    rw [decide_eq_true_eq, findEnd_eq_iff h.2.2, List.suffix_iff_eq_drop, eq_comm, and_iff_right]
    exact List.length_pos_iff.mp h.2.1
  · next h =>
    refine iff_of_false Bool.false_ne_true fun hsuffix => h ?_
    have hpos := List.length_pos_iff.mpr hsuffix.1
    have hle := hsuffix.2.length_le
    exact ⟨by omega, hpos, hle⟩

/-- Nothing that ends with one of them ends with another. -/
theorem frameSuffixes_exclusive : ∀ a ∈ frameSuffixes, ∀ b ∈ frameSuffixes, a <:+ b → a = b := by decide

theorem sum_toNat_of_exclusive {α : Type} {p : α → Bool} {l : List α} (hnodup : l.Nodup)
    (h : ∀ a ∈ l, ∀ b ∈ l, p a = true → p b = true → a = b) : (l.map fun a => (p a).toNat).sum = (l.any p).toNat := by
  induction l with
  | nil => rfl
  | cons a l ih =>
    obtain ⟨ha, hl⟩ := List.nodup_cons.mp hnodup
    have hrest := ih hl fun b hb c hc => h b (List.mem_cons_of_mem _ hb) c (List.mem_cons_of_mem _ hc)
    rw [List.map_cons, List.sum_cons, hrest, List.any_cons]
    cases hp : p a with
    | false => rw [Bool.false_or]; exact Nat.zero_add _
    | true =>
      have hnone : l.any p = false := by
        rw [List.any_eq_false]
        intro b hb hpb
        exact ha (h a List.mem_cons_self b (List.mem_cons_of_mem _ hb) hp hpb ▸ hb)
      rw [hnone]
      rfl

/-- An entry is counted once, if its name ends with one of the suffixes. -/
theorem frameCount_eq (name : List Char) : frameCount name = (frameSuffixes.any (checkEndswith name)).toNat := by
  refine sum_toNat_of_exclusive (by decide) fun a ha b hb hends hends' => ?_
  have hsuffix := (checkEndswith_iff.mp hends).2
  have hsuffix' := (checkEndswith_iff.mp hends').2
  rcases List.suffix_or_suffix_of_suffix hsuffix hsuffix' with hab | hba
  · exact frameSuffixes_exclusive a ha b hb hab
  · exact (frameSuffixes_exclusive b hb a ha hba).symm

theorem frameCount_of_suffix {name suffix : List Char} (hmem : suffix ∈ frameSuffixes) (hsuffix : suffix <:+ name) :
    frameCount name = 1 := by
  have hne : suffix ≠ [] := fun hnil => absurd (hnil ▸ hmem) (by decide)
  have hany : frameSuffixes.any (checkEndswith name) = true :=
    List.any_eq_true.mpr ⟨suffix, hmem, checkEndswith_iff.mpr ⟨hne, hsuffix⟩⟩
  rw [frameCount_eq, hany]
  rfl

theorem countFrames_append (names more : List (List Char)) :
    countFrames (names ++ more) = countFrames names + countFrames more := by
  rw [countFrames, List.map_append, List.sum_append]
  rfl

/-- What is not counted can be deleted. -/
theorem countFrames_filter {p : List Char → Bool} {names : List (List Char)}
    (h : ∀ name ∈ names, p name = false → frameCount name = 0) : countFrames (names.filter p) = countFrames names := by
  induction names with
  | nil => rfl
  | cons name names ih =>
    have hrest := ih fun other hother => h other (List.mem_cons_of_mem _ hother)
    have hcons : countFrames (name :: names) = frameCount name + countFrames names := rfl
    cases hp : p name with
    | true => rw [List.filter_cons_of_pos hp, hcons, ← hrest]; rfl
    | false =>
      rw [List.filter_cons_of_neg (by rw [hp]; exact Bool.false_ne_true), hcons, hrest, h name List.mem_cons_self hp]
      exact (Nat.zero_add _).symm

end

/-! ## What captures are named -/

section
variable {kind other : Kind} {n m : Nat} {c : Card}

theorem map_of_digits {f : Char → Char} (hf : ∀ d : Char, d.isDigit = true → f d = d) (n : Nat) :
    (captureName n).map f = captureName n := by
  have hdigits : ∀ d ∈ captureName n, f d = d := fun d hd =>
    hf d (Nat.isDigit_of_mem_toDigits (by decide) (by decide) (List.mem_of_mem_take hd))
  rw [List.map_congr_left hdigits, List.map_id']

theorem toLower_digit (d : Char) (h : d.isDigit = true) : d.toLower = d := by
  refine Char.toLower_eq_of_not_isUpper fun hupper => ?_
  simp only [Char.isDigit, Char.isUpper, Bool.and_eq_true, decide_eq_true_eq, UInt32.le_iff_toNat_le] at h hupper
  exact absurd (hupper.1.trans h.2) (by decide)

theorem toUpper_digit (d : Char) (h : d.isDigit = true) : d.toUpper = d := by
  refine Char.toUpper_eq_of_not_isLower fun hlower => ?_
  simp only [Char.isDigit, Char.isLower, Bool.and_eq_true, decide_eq_true_eq, UInt32.le_iff_toNat_le] at h hlower
  exact absurd (hlower.1.trans h.2) (by decide)

theorem toLower_fileName : (fileName kind n).map Char.toLower = fileName kind n := by
  rw [fileName, List.map_append, map_of_digits toLower_digit]
  cases kind <;> rfl

/-- The name as the card keeps it is the same name. -/
theorem toLower_stored (name : List Char) : (c.stored name).map Char.toLower = name.map Char.toLower := by
  unfold Card.stored
  split
  · rfl
  · rw [List.map_map]
    exact List.map_congr_left fun d _ => Char.toLower_toUpper_eq_toLower d

variable (c kind n) in
theorem frameCount_stored : frameCount (c.stored (fileName kind n)) = 1 := by
  unfold Card.stored
  split
  · have hmem : kind.extension ∈ frameSuffixes := by cases kind <;> decide
    exact frameCount_of_suffix hmem (List.suffix_append _ _)
  · rw [fileName, List.map_append, map_of_digits toUpper_digit]
    have hmem : kind.extension.map Char.toUpper ∈ frameSuffixes := by cases kind <;> decide
    exact frameCount_of_suffix hmem (List.suffix_append _ _)

theorem captureName_of_lt (h : n < 100000) : captureName n = Nat.toDigits 10 n :=
  List.take_of_length_le ((Nat.length_toDigits_le_iff (by decide) (by decide)).mpr h)

/-- Captures with other numbers, or of the other kind, have other names. -/
theorem fileName_inj (hn : n < 100000) (hm : m < 100000) (h : fileName kind n = fileName other m) :
    kind = other ∧ n = m := by
  have hextensions : kind.extension.length = other.extension.length := by cases kind <;> cases other <;> rfl
  obtain ⟨hname, hextension⟩ := List.append_inj' h hextensions
  rw [captureName_of_lt hn, captureName_of_lt hm] at hname
  refine ⟨?_, ?_⟩
  · cases kind <;> cases other <;> first | rfl | exact absurd hextension (by decide)
  · rw [← Nat.ofDigitChars_ten_toDigits (n := n), hname, Nat.ofDigitChars_ten_toDigits]

/-- A file has the name of a capture if it is the name in lower case. -/
theorem sameName_fileName {file : List Char} :
    sameName (fileName kind n) file ↔ file.map Char.toLower = fileName kind n := by
  rw [sameName, toLower_fileName]
  exact eq_comm

end

/-! ## Runs -/

namespace Card

variable {c : Card}

/-- A capture that finds no file of its name adds one. -/
theorem capture_of_new {kind : Kind} {n : Nat} (h : ∀ file ∈ c.files, ¬ sameName (fileName kind n) file) :
    c.capture (fileName kind n) = { c with files := c.files ++ [c.stored (fileName kind n)] } := by
  have hnew : ¬ c.files.any (sameName (fileName kind n)) = true := by
    rw [List.any_eq_true]
    rintro ⟨file, hfile, hsame⟩
    exact h file hfile (of_decide_eq_true hsame)
  rw [capture, if_neg hnew, create, if_neg hnew]

theorem Numbered.new (h : c.Numbered) (hcount : countFrames c.files < 100000) (kind : Kind) :
    ∀ file ∈ c.files, ¬ sameName (fileName kind (countFrames c.files)) file := fun file hfile hsame =>
  Nat.lt_irrefl _ (h file hfile kind _ hcount hsame)

/-- More files, none of them a capture with a number that is too large. -/
theorem Numbered.append {file : List Char} (h : c.Numbered)
    (hfile : ∀ kind n, n < 100000 → sameName (fileName kind n) file → n < countFrames c.files + frameCount file) :
    Numbered { c with files := c.files ++ [file] } := by
  intro other hother kind n hn hsame
  have hcount : countFrames (c.files ++ [file]) = countFrames c.files + frameCount file := by
    rw [countFrames_append]
    rfl
  rcases List.mem_append.mp hother with hbefore | hnew
  · exact Nat.lt_of_lt_of_le (h other hbefore kind n hn hsame) (hcount.ge.trans' (Nat.le_add_right _ _))
  · rw [List.mem_singleton.mp hnew] at hsame
    exact Nat.lt_of_lt_of_le (hfile kind n hn hsame) hcount.ge

theorem step_numbered (e : Event) (h : c.Numbered) (horderly : c.Orderly e) :
    (c.step e).Numbered ∧ (c.step e).overwritten = c.overwritten := by
  cases e with
  | capture kind =>
    have hcount : countFrames c.files < 100000 := horderly
    show (c.capture _).Numbered ∧ (c.capture _).overwritten = _
    rw [capture_of_new (h.new hcount kind)]
    refine ⟨h.append fun other n hn hsame => ?_, rfl⟩
    rw [sameName_fileName, toLower_stored, toLower_fileName] at hsame
    rw [(fileName_inj hcount hn hsame).2, frameCount_stored kind]
    exact Nat.lt_succ_self _
  | create name =>
    show (c.create name).Numbered ∧ (c.create name).overwritten = _
    unfold create
    split
    · exact ⟨h, rfl⟩
    · refine ⟨h.append fun kind n hn hsame => absurd ?_ (horderly kind n hn), rfl⟩
      exact hsame.trans (toLower_stored name)
  | remove name =>
    refine ⟨fun file hfile kind n hn hsame => ?_, rfl⟩
    have hkept : countFrames (c.remove name).files = countFrames c.files :=
      countFrames_filter fun file hfile hremoved => horderly file hfile (by simpa using hremoved)
    exact Nat.lt_of_lt_of_le (h file (List.mem_of_mem_filter hfile) kind n hn hsame) hkept.ge

/-- **Captures do not overwrite each other.** -/
theorem no_capture_overwrites {es : List Event} (h : c.Numbered) (horderly : Along step Orderly c es) :
    (run step c es).overwritten = c.overwritten := by
  induction es generalizing c with
  | nil => rfl
  | cons e es ih =>
    obtain ⟨hnumbered, hkept⟩ := step_numbered e h horderly.1
    exact (ih hnumbered horderly.2).trans hkept

theorem no_capture_overwrites_empty :
    (run step { longNames := false } [.capture .photo, .capture .video, .capture .photo]).overwritten = [] := by
  refine no_capture_overwrites (fun _ hfile => by cases hfile) ⟨?_, ?_, ?_, trivial⟩
  · show countFrames _ < 100000
    decide
  · show countFrames _ < 100000
    decide
  · show countFrames _ < 100000
    decide

/-! ## Deleting a photo -/

def photos (longNames : Bool) (n : Nat) : Card where
  longNames := longNames
  files := (List.range n).map fun k => stored { longNames } (fileName .photo k)

theorem countFrames_photos (longNames : Bool) (ks : List Nat) :
    countFrames (ks.map fun k => stored { longNames } (fileName .photo k)) = ks.length := by
  induction ks with
  | nil => rfl
  | cons k ks ih =>
    have hcons := congrArg₂ (· + ·) (frameCount_stored .photo k { longNames }) ih
    rw [List.length_cons, Nat.add_comm]
    exact hcons

theorem mem_photos {longNames : Bool} {n k : Nat} (hn : n < 100000) (hk : k < 100000) :
    sameName (fileName .photo n) (stored { longNames } (fileName .photo k)) ↔ k = n := by
  rw [sameName_fileName, toLower_stored, toLower_fileName]
  exact ⟨fun h => (fileName_inj hk hn h).2, fun h => by rw [h]⟩

theorem photos_succ {longNames : Bool} {n : Nat} (hn : n < 100000) :
    (photos longNames n).step (.capture .photo) = photos longNames (n + 1) := by
  have hcount : countFrames (photos longNames n).files = n := by
    rw [photos, countFrames_photos, List.length_range]
  have hnew : ∀ file ∈ (photos longNames n).files, ¬ sameName (fileName .photo n) file := by
    intro file hfile hsame
    obtain ⟨k, hk, rfl⟩ := List.mem_map.mp hfile
    have hlt := List.mem_range.mp hk
    rw [mem_photos hn (hlt.trans hn)] at hsame
    exact Nat.lt_irrefl _ (hsame ▸ hlt)
  rw [step, hcount, capture_of_new hnew, photos, photos, List.range_succ, List.map_append]
  rfl

theorem run_photos {longNames : Bool} {n : Nat} (hn : n ≤ 100000) :
    run step { longNames } (List.replicate n (.capture .photo)) = photos longNames n := by
  induction n with
  | zero => rfl
  | succ n ih =>
    rw [List.replicate_succ', run_append, ih (Nat.le_of_succ_le hn)]
    exact photos_succ hn

theorem photos_remove (longNames : Bool) {n i : Nat} (hi : i < n) (hn : n ≤ 100000) :
    ((photos longNames n).step (.remove (fileName .photo i))).files =
      ((List.range n).filter (· ≠ i)).map fun k => stored { longNames } (fileName .photo k) := by
  show ((List.range n).map _).filter _ = _
  rw [List.filter_map]
  refine congrArg (List.map _) (List.filter_congr fun k hk => ?_)
  have hlt := List.mem_range.mp hk
  exact decide_eq_decide.mpr (not_congr (mem_photos (by omega) (by omega)))

theorem length_range_without {n i : Nat} (hi : i < n) : ((List.range n).filter (· ≠ i)).length = n - 1 := by
  have herase : (List.range n).filter (· ≠ i) = (List.range n).erase i := by
    rw [List.nodup_range.erase_eq_filter]
    exact List.filter_congr fun k _ => decide_not
  rw [herase, List.length_erase_of_mem (List.mem_range.mpr hi), List.length_range]

/-- **Deleting a photo** that is not the newest costs the newest one. -/
theorem a_deletion_costs_the_newest {longNames : Bool} {n i : Nat} (hi : i + 1 < n) (hn : n ≤ 100000) :
    (run step { longNames } (List.replicate n (.capture .photo) ++ [.remove (fileName .photo i), .capture .photo])).overwritten =
      [fileName .photo (n - 1)] := by
  have hfiles := photos_remove longNames (by omega : i < n) hn
  have hcount : countFrames ((photos longNames n).step (.remove (fileName .photo i))).files = n - 1 := by
    rw [hfiles, countFrames_photos, length_range_without (by omega)]
  have hthere : ((photos longNames n).step (.remove (fileName .photo i))).files.any (sameName (fileName .photo (n - 1))) = true := by
    rw [hfiles, List.any_eq_true]
    refine ⟨_, List.mem_map_of_mem (List.mem_filter.mpr ⟨List.mem_range.mpr (by omega : n - 1 < n), ?_⟩), ?_⟩
    · exact decide_eq_true (by omega)
    · exact decide_eq_true ((mem_photos (by omega) (by omega)).mpr rfl)
  rw [run_append, run_photos hn, run_cons, run_cons, run_nil]
  show (capture _ (fileName .photo (countFrames _))).overwritten = _
  rw [hcount, capture, if_pos hthere]
  rfl

theorem a_deletion_costs_the_newest_of_three :
    (run step { longNames := true } (List.replicate 3 (.capture .photo) ++ [.remove (fileName .photo 0), .capture .photo])).overwritten =
      [fileName .photo 2] := a_deletion_costs_the_newest (by decide) (by decide)

end Card

end Esp32Cam.Cam
