/-
  Esp32Cam.Mod.CardFaults — the parameters on a card that fails.

  `Esp32Cam.Mod.Parameter` has a file system without errors. Here every call of it is answered
  by the card (`Card`): the file is opened or not, and read or written as far as the card
  gets. On a card that answers as it should the operations are those of that module
  (`load_of_answers`, `save_of_answers`).

  The file is written in place, and the result of `fwrite` is dropped. So a commit leaves the
  file as it was, or the object with the new value, or a part of it, which does not parse:
  then all parameters are lost, and the commit is answered with Ok (`commit_outcome`).

  - `fetched_is_what_was_committed`: whatever the card answers, throughout every run a fetch
    that is answered with Ok gives what the last commit of the parameter that was answered
    with Ok has stored. Where there is none, it gives what the file said to begin with.
  - `commits_last_iff`: what has been committed with Ok can be read again throughout a run exactly
    when every commit that is answered with Ok is written whole, and short enough to be read.
-/

import Esp32Cam.Mod.ParameterMap

namespace Esp32Cam.Mod.Par

open Esp32Cam.Lib Esp32Cam.Lib.PartialRun
open SdMemoryProvider (kFileSizeUpperThreshold encode decode entriesOf)

variable {δ : Type}

/-- What is said of cJSON: parsing inverts printing, and finds nothing in a part of an object. -/
structure CJson.Lawful (lib : CJson δ) : Prop where
  inverts : lib.Inverts
  part : ∀ entries n, n < (lib.print (.object entries)).1.length →
    lib.parse (cStr ((lib.print (.object entries)).1.take n)) = none
  stub : lib.parse (cStr (ascii "\x7b\x7d")) = some (.object [])
  partOfStub : ∀ n, n < 2 → lib.parse (cStr ((ascii "\x7b\x7d").take n)) = none

/-- What is stored of a value. -/
def Variant.upToNul : Variant → Variant
  | .str value => .str (cStr value).1
  | value => value

theorem decode_encode_upToNul {t : ParameterType} {v : Variant} {item : Item δ} (h : encode t v = some item) :
    decode t item = some v.upToNul := by
  cases t with
  | i32 =>
    cases v with
    | i32 value =>
      obtain rfl := Option.some_inj.mp h
      rw [decode, toInt32_intCast]
      rfl
    | _ => cases h
  | str =>
    cases v with
    | str value =>
      obtain rfl := Option.some_inj.mp h
      rfl
    | _ => cases h

/-- What the card answers to the calls of one operation, in their order. -/
structure Card where
  /-- Whether the file is opened for appending, at the first attempt and at the second. -/
  ensures : Bool × Bool
  opensToRead : Bool
  /-- How many bytes it can read. -/
  nread : Nat
  /-- The attempts in front of the write. -/
  ensuresAgain : Bool × Bool
  opensToWrite : Bool
  nwritten : Nat
  deriving DecidableEq, Repr

namespace CardFaults

/-! ## The provider -/

def configFileEnsureExists (ensures : Bool × Bool) (file : File) : Except Result (List UInt8) :=
  if ensures.1 || ensures.2 then .ok (file.getD []) else .error .sdCardError

def configFileRead (card : Card) (bytes : List UInt8) : Except Result CString :=
  if ¬ card.opensToRead then .error .fileIoError
  else if bytes.length > kFileSizeUpperThreshold then .error .notEnoughMemoryError
  else if card.nread < bytes.length then .error .fileIoError
  else .ok (cStr bytes)

/-- Opening the file empties it. Nothing looks at how much has been written. -/
def configFileWrite (card : Card) (file : File) (buffer : List UInt8) : File × Result :=
  match configFileEnsureExists card.ensuresAgain file with
  | .error e => (file, e)
  | .ok bytes => if card.opensToWrite then (some (buffer.take card.nwritten), .ok) else (some bytes, .fileIoError)

def configFileWriteStub (card : Card) (file : File) : File := (configFileWrite card file (ascii "\x7b\x7d")).1

def load (lib : CJson δ) (d : ParameterDescription) (card : Card) (file : File) (variant : Variant) :
    File × Result × Variant :=
  match configFileEnsureExists card.ensures file with
  | .error e => (file, e, variant)
  | .ok bytes =>
    match configFileRead card bytes with
    | .error e => (some bytes, e, variant)
    | .ok buffer =>
      match lib.parse buffer with
      | none => (configFileWriteStub card (some bytes), .fileFormatError, variant)
      | some (.item _) => (some bytes, .fileFormatError, variant)
      | some (.object entries) =>
        match Entries.lookup (cStr d.name) entries with
        | none => (some bytes, .entryNotFoundError, variant)
        | some item =>
          match decode d.parameterType item with
          | some value => (some bytes, .ok, value)
          | none => (some bytes, .fileFormatError, variant)

/-- As without faults, a value of the other type ends the model. -/
def save (lib : CJson δ) (d : ParameterDescription) (card : Card) (file : File) (value : Variant) :
    Option (File × Result) :=
  match configFileEnsureExists card.ensures file with
  | .error e => some (file, e)
  | .ok bytes =>
    match configFileRead card bytes with
    | .error e => some (some bytes, e)
    | .ok buffer => (encode d.parameterType value).map fun item =>
      let entries := Entries.replace sameIgnoringCase (cStr d.name) item (entriesOf lib buffer)
      configFileWrite card (some bytes) (lib.print (.object entries)).1

def fetch (lib : CJson δ) (card : Card) (s : Store) (id : Id) : Store × Result :=
  match (description id).memoryProviderType with
  | .sd =>
    let (file, res, value) := load lib (description id) card s.file (s.variant id)
    (Store.set { s with file } id value, res)
  | .nvs => (s, .memoryProviderNotFound)

def commit (lib : CJson δ) (card : Card) (s : Store) (id : Id) : Option (Store × Result) :=
  match (description id).memoryProviderType with
  | .sd => (save lib (description id) card s.file (s.variant id)).map fun (file, res) => ({ s with file }, res)
  | .nvs => some (s, .memoryProviderNotFound)

end CardFaults

/-! ## A card that answers -/

structure Card.Reads (card : Card) (bytes : List UInt8) : Prop where
  ensures : (card.ensures.1 || card.ensures.2) = true
  opens : card.opensToRead = true
  whole : bytes.length ≤ card.nread

structure Card.Writes (card : Card) (bytes : List UInt8) : Prop where
  ensures : (card.ensuresAgain.1 || card.ensuresAgain.2) = true
  opens : card.opensToWrite = true
  whole : bytes.length ≤ card.nwritten

namespace CardFaults

section
variable {card : Card} {d : ParameterDescription} {file : File} {bytes : List UInt8} {value : Variant}

theorem configFileRead_of_reads (h : card.Reads bytes) :
    configFileRead card bytes = SdMemoryProvider.configFileRead bytes := by
  rw [configFileRead, h.opens, if_neg (not_not_intro rfl), if_neg (Nat.not_lt.mpr h.whole)]
  rfl

theorem configFileWrite_of_writes (h : card.Writes bytes) (file : File) :
    configFileWrite card file bytes = (some bytes, .ok) := by
  rw [configFileWrite, configFileEnsureExists, if_pos h.ensures]
  dsimp only
  rw [if_pos h.opens, List.take_of_length_le h.whole]

theorem load_of_answers (lib : CJson δ) (hread : card.Reads (file.getD [])) (hstub : card.Writes (ascii "\x7b\x7d")) :
    load lib d card file value = SdMemoryProvider.load lib d file value := by
  rw [load, configFileEnsureExists, if_pos hread.ensures]
  dsimp only
  rw [configFileRead_of_reads hread, configFileWriteStub, configFileWrite_of_writes hstub]
  rfl

theorem save_of_answers (lib : CJson δ) (hread : card.Reads (file.getD []))
    (hwrite : ∀ root, card.Writes (lib.print root).1) :
    save lib d card file value = SdMemoryProvider.save lib d file value := by
  rw [save, configFileEnsureExists, if_pos hread.ensures]
  dsimp only
  rw [configFileRead_of_reads hread]
  simp only [configFileWrite_of_writes (hwrite _)]
  rfl

end

/-! ## What an operation leaves -/

section
variable {lib : CJson δ} {card : Card} {s s' : Store} {id : Id} {v : Variant} {item : Item δ}

theorem configFileRead_ok {bytes : List UInt8} {buffer : CString} (h : configFileRead card bytes = .ok buffer) :
    bytes.length ≤ kFileSizeUpperThreshold ∧ buffer = cStr bytes := by
  unfold configFileRead at h
  split at h
  · cases h
  · split at h
    · cases h
    · next hshort =>
      split at h
      · cases h
      · exact ⟨Nat.not_lt.mp hshort, (Except.ok.inj h).symm⟩

theorem configFileRead_ne_ok (card : Card) (bytes : List UInt8) : configFileRead card bytes ≠ .error .ok := by
  unfold configFileRead
  split
  · simp
  · split
    · simp
    · split
      · simp
      · simp

theorem configFileEnsureExists_cases (ensures : Bool × Bool) (file : File) :
    configFileEnsureExists ensures file = .ok (file.getD []) ∨
      configFileEnsureExists ensures file = .error .sdCardError := by
  unfold configFileEnsureExists
  split
  · exact Or.inl rfl
  · exact Or.inr rfl

/-- A write that fails leaves the bytes as they are; otherwise the file has what the card has written. -/
theorem configFileWrite_cases (card : Card) (file : File) (buffer : List UInt8) :
    ((configFileWrite card file buffer).2 ≠ .ok ∧ (configFileWrite card file buffer).1.getD [] = file.getD []) ∨
      configFileWrite card file buffer = (some (buffer.take card.nwritten), .ok) := by
  unfold configFileWrite
  rcases configFileEnsureExists_cases card.ensuresAgain file with hexists | hexists
  · rw [hexists]
    dsimp only
    split
    · exact Or.inr rfl
    · exact Or.inl ⟨by simp, rfl⟩
  · rw [hexists]
    exact Or.inl ⟨by simp, rfl⟩

/-- The bytes are those of before; or they did not parse, and the file has as much of the stub as was written. -/
def Kept (lib : CJson δ) (s : Store) (file : File) : Prop :=
  file.getD [] = s.bytes ∨ s.entries lib = [] ∧ ∃ n, file = some ((ascii "\x7b\x7d").take n)

theorem stored_of_entries_nil (h : s.entries lib = []) (j : Id) : s.stored lib j = none := by
  rw [Store.stored, h]
  rfl

theorem entries_of_none (hparse : lib.parse (cStr s.bytes) = none) : s.entries lib = [] := by
  rw [Store.entries, entriesOf, hparse]

theorem entries_of_item {value : Item δ} (hparse : lib.parse (cStr s.bytes) = some (.item value)) :
    s.entries lib = [] := by
  rw [Store.entries, entriesOf, hparse]

theorem kept_stub (card : Card) (hparse : lib.parse (cStr s.bytes) = none) :
    Kept lib s (configFileWriteStub card (some s.bytes)) := by
  unfold configFileWriteStub
  rcases configFileWrite_cases card (some s.bytes) (ascii "\x7b\x7d") with ⟨-, hbytes⟩ | hwritten
  · exact Or.inl hbytes
  · rw [hwritten]
    exact Or.inr ⟨entries_of_none hparse, _, rfl⟩

/-- A fetch gives what the file says, if the card reads it and it is short enough. -/
theorem fetch_cases (lib : CJson δ) (card : Card) (s : Store) (id : Id) :
    (s.Readable ∧ ∃ v, s.stored lib id = some v ∧
      fetch lib card s id = (({ s with file := some s.bytes } : Store).set id v, .ok)) ∨
    ((card.Reads s.bytes → s.Readable → s.stored lib id = none) ∧ ∃ file res,
      fetch lib card s id = (({ s with file } : Store).set id (s.variant id), res) ∧ res ≠ .ok ∧ Kept lib s file) := by
  unfold fetch
  rw [provider_sd]
  dsimp only
  unfold load
  rcases configFileEnsureExists_cases card.ensures s.file with hexists | hexists
  · rw [hexists]
    dsimp only
    cases hread : configFileRead card (s.file.getD []) with
    | error e =>
      have hne : e ≠ .ok := by
        rintro rfl
        exact configFileRead_ne_ok card _ hread
      refine Or.inr ⟨fun hreads hshort => ?_, _, _, rfl, hne, Or.inl rfl⟩
      have hok : configFileRead card s.bytes = .ok (cStr s.bytes) := by
        rw [configFileRead_of_reads hreads, SdMemoryProvider.configFileRead, if_neg (Nat.not_lt.mpr hshort)]
      have hboth := hok.symm.trans hread
      cases hboth
    | ok buffer =>
      obtain ⟨hshort, rfl⟩ := configFileRead_ok hread
      dsimp only
      cases hparse : lib.parse (cStr (s.file.getD [])) with
      | none =>
        exact Or.inr ⟨fun _ _ => stored_of_entries_nil (entries_of_none hparse) id, _, _, rfl, by simp, kept_stub card hparse⟩
      | some root =>
        cases root with
        | item value =>
          exact Or.inr ⟨fun _ _ => stored_of_entries_nil (entries_of_item hparse) id, _, _, rfl, by simp, Or.inl rfl⟩
        | object entries =>
          have hentries : s.entries lib = entries := by rw [Store.entries, Store.bytes, entriesOf, hparse]
          dsimp only
          cases hlookup : Entries.lookup (cStr (description id).name) entries with
          | none =>
            refine Or.inr ⟨fun _ _ => ?_, _, _, rfl, by simp, Or.inl rfl⟩
            rw [Store.stored, hentries, nameOf, hlookup]
            rfl
          | some item =>
            have hstored : s.stored lib id = decode (description id).parameterType item := by
              rw [Store.stored, hentries, nameOf, hlookup]
              rfl
            dsimp only
            cases hdecode : decode (description id).parameterType item with
            | none => exact Or.inr ⟨fun _ _ => hstored.trans hdecode, _, _, rfl, by simp, Or.inl rfl⟩
            | some v => exact Or.inl ⟨hshort, v, hstored.trans hdecode, rfl⟩
  · refine Or.inr ⟨fun hreads => ?_, ?_⟩
    · rw [configFileEnsureExists, if_pos hreads.ensures] at hexists
      cases hexists
    · rw [hexists]
      exact ⟨_, _, rfl, by simp, Or.inl rfl⟩

/-- A commit answered with Ok has written its object as far as the card has got. -/
theorem commit_outcome {res : Result} (h : commit lib card (s.set id v) id = some (s', res)) :
    (res ≠ .ok ∧ s'.bytes = s.bytes) ∨
    (s.Readable ∧ res = .ok ∧ ∃ item, encode (description id).parameterType v = some item ∧
      s'.file = some ((written lib s id item).take card.nwritten)) := by
  unfold commit at h
  rw [provider_sd] at h
  obtain ⟨⟨file, res'⟩, hsave, heq⟩ := Option.map_eq_some_iff.mp h
  obtain ⟨rfl, rfl⟩ := Prod.mk.inj heq
  have hv : (s.set id v).variant id = v := if_pos rfl
  rw [hv] at hsave
  unfold save at hsave
  rcases configFileEnsureExists_cases card.ensures (s.set id v).file with hexists | hexists
  · rw [hexists] at hsave
    dsimp only at hsave
    cases hread : configFileRead card ((s.set id v).file.getD []) with
    | error e =>
      rw [hread] at hsave
      obtain ⟨rfl, rfl⟩ := Prod.mk.inj (Option.some_inj.mp hsave)
      refine Or.inl ⟨?_, rfl⟩
      rintro rfl
      exact configFileRead_ne_ok card _ hread
    | ok buffer =>
      obtain ⟨hshort, rfl⟩ := configFileRead_ok hread
      rw [hread] at hsave
      obtain ⟨item, hitem, hwrite⟩ := Option.map_eq_some_iff.mp hsave
      rcases configFileWrite_cases card (some ((s.set id v).file.getD [])) _ with ⟨hres, hbytes⟩ | hwritten
      · refine Or.inl ?_
        rw [hwrite] at hres hbytes
        exact ⟨hres, hbytes⟩
      · rw [hwrite] at hwritten
        obtain ⟨rfl, rfl⟩ := Prod.mk.inj hwritten
        exact Or.inr ⟨hshort, rfl, item, hitem, rfl⟩
  · rw [hexists] at hsave
    obtain ⟨rfl, rfl⟩ := Prod.mk.inj (Option.some_inj.mp hsave)
    exact Or.inl ⟨by simp, rfl⟩

end

/-! ## A file that does not parse -/

section
variable {lib : CJson δ} {s s' : Store} {id : Id} {item : Item δ}

theorem tidy_of_entries_nil (h : s.entries lib = []) : Tidy lib s := by
  intro j
  rw [h]
  exact Nat.zero_le 1

/-- A part of an object has no entries. -/
theorem entries_of_part (hlib : lib.Lawful) {n : Nat} (hn : n < (written lib s id item).length)
    (h : s'.file = some ((written lib s id item).take n)) : s'.entries lib = [] := by
  rw [Store.entries, Store.bytes, h, Option.getD_some, entriesOf, written, hlib.part _ n hn]

/-- What is left of a file that an operation does not answer with Ok has the same entries. -/
theorem entries_of_kept (hlib : lib.Lawful) {file : File} (h : Kept lib s file) (hfile : s'.file = file) :
    s'.entries lib = s.entries lib := by
  rcases h with hbytes | ⟨hnil, n, rfl⟩
  · rw [Store.entries, Store.bytes, hfile, hbytes, Store.entries]
  · rw [hnil, Store.entries, Store.bytes, hfile, Option.getD_some, entriesOf]
    by_cases hn : n < 2
    · rw [hlib.partOfStub n hn]
    · rw [List.take_of_length_le (Nat.not_lt.mp hn), hlib.stub]

/-- What a commit answered with Ok leaves: its value and those of the others, or nothing. -/
theorem stored_of_written (hlib : lib.Lawful) (htidy : Tidy lib s) {v : Variant} {n : Nat}
    (hitem : encode (description id).parameterType v = some item)
    (h : s'.file = some ((written lib s id item).take n)) :
    Tidy lib s' ∧
      ((written lib s id item).length ≤ n ∧ s'.stored lib id = some v.upToNul ∧
          (∀ j, j ≠ id → s'.stored lib j = s.stored lib j) ∨
        n < (written lib s id item).length ∧ ∀ j, s'.stored lib j = none) := by
  rcases Nat.lt_or_ge n (written lib s id item).length with hn | hn
  · have hnil := entries_of_part hlib hn h
    exact ⟨tidy_of_entries_nil hnil, Or.inr ⟨hn, stored_of_entries_nil hnil⟩⟩
  · rw [List.take_of_length_le hn] at h
    refine ⟨tidy_written hlib.inverts htidy h, Or.inl ⟨hn, ?_, fun j hj => stored_other hlib.inverts h hj⟩⟩
    rw [stored_self hlib.inverts h, leftOver_of_tidy htidy]
    exact decode_encode_upToNul hitem

end

/-! ## Runs -/

inductive Event where
  | commit (id : Id) (value : Variant) (card : Card)
  | fetch (id : Id) (card : Card)
  | restart
  deriving DecidableEq

/-- The store, and what has been committed last of each parameter, where that was answered with Ok. -/
structure Committed where
  store : Store
  committed : Id → Option Variant := fun _ => none

def step (lib : CJson δ) (k : Committed) : Event → Option Committed
  | .commit id value card => (commit lib card (k.store.set id value) id).map fun (store, res) =>
    { store, committed := if res = .ok then fun i => if i = id then some value else k.committed i else k.committed }
  | .fetch id card => some { k with store := (fetch lib card k.store id).1 }
  | .restart => some { k with store.variant := fun _ => .none }

/-- What the parameter is expected to be: `initial` is what the file said to begin with. -/
def Committed.expected (k : Committed) (initial : Id → Option Variant) (id : Id) : Option Variant :=
  match k.committed id with
  | some value => some value.upToNul
  | none => initial id

def FetchesExpected (lib : CJson δ) (initial : Id → Option Variant) (k : Committed) (e : Event) (_ : Committed) : Prop :=
  match e with
  | .fetch id card => (fetch lib card k.store id).2 = .ok →
    k.expected initial id = some ((fetch lib card k.store id).1.variant id)
  | _ => True

/-- The file has what is expected, or nothing, of each parameter. -/
structure Inv (lib : CJson δ) (initial : Id → Option Variant) (k : Committed) : Prop where
  tidy : Tidy lib k.store
  stored : ∀ id, k.store.stored lib id = none ∨ k.store.stored lib id = k.expected initial id

section
variable {lib : CJson δ} {initial : Id → Option Variant} {k k' : Committed} {e : Event}

theorem Inv.of_entries (h : Inv lib initial k) (hcommitted : k'.committed = k.committed)
    (hentries : k'.store.entries lib = k.store.entries lib) : Inv lib initial k' := by
  refine ⟨fun j => ?_, fun id => ?_⟩
  · rw [hentries]
    exact h.tidy j
  · rw [Store.stored, hentries, Committed.expected, hcommitted]
    exact h.stored id

theorem step_inv (hlib : lib.Lawful) (hs : step lib k e = some k') (h : Inv lib initial k) : Inv lib initial k' := by
  cases e with
  | commit id v card =>
    obtain ⟨⟨s', res⟩, hcommit, rfl⟩ := Option.map_eq_some_iff.mp hs
    rcases commit_outcome hcommit with ⟨hres, hbytes⟩ | ⟨-, rfl, item, hitem, hfile⟩
    · refine h.of_entries (if_neg hres) ?_
      rw [Store.entries, hbytes, Store.entries]
    · obtain ⟨htidy, hkept | ⟨-, hlost⟩⟩ := stored_of_written hlib h.tidy hitem hfile
      · obtain ⟨-, hself, hothers⟩ := hkept
        refine ⟨htidy, fun j => ?_⟩
        by_cases hj : j = id
        · subst hj
          exact Or.inr (hself.trans (by simp [Committed.expected]))
        · have hexpected := h.stored j
          simpa [Committed.expected, hj, hothers j hj] using hexpected
      · exact ⟨htidy, fun j => Or.inl (hlost j)⟩
  | fetch id card =>
    obtain rfl := Option.some_inj.mp hs
    rcases fetch_cases lib card k.store id with ⟨-, v, -, heq⟩ | ⟨-, file, res, heq, -, hkept⟩
    · refine h.of_entries rfl ?_
      rw [heq]
      rfl
    · refine h.of_entries rfl ?_
      rw [heq]
      exact entries_of_kept hlib hkept rfl
  | restart =>
    obtain rfl := Option.some_inj.mp hs
    exact h.of_entries rfl rfl

theorem fetchesExpected (h : Inv lib initial k) : FetchesExpected lib initial k e k' := by
  cases e with
  | commit id v card => trivial
  | restart => trivial
  | fetch id card =>
    intro hok
    rcases fetch_cases lib card k.store id with ⟨-, v, hstored, heq⟩ | ⟨-, file, res, heq, hres, -⟩
    · rw [heq]
      have hread : (({ k.store with file := some k.store.bytes } : Store).set id v).variant id = v := if_pos rfl
      rw [hread]
      rcases h.stored id with hnone | hexpected
      · rw [hstored] at hnone
        cases hnone
      · rw [← hexpected, hstored]
    · rw [heq] at hok
      exact absurd hok hres

end

/-- **No fetch lies.** Over every run of commits, fetches and restarts, whatever the card answers to each of their
    calls: what a fetch gives with Ok is what the last commit of the parameter that was answered with Ok has
    stored, up to its first NUL. -/
theorem fetched_is_what_was_committed {lib : CJson δ} (hlib : lib.Lawful) (s : Store) (htidy : Tidy lib s)
    (events : List Event) :
    Along (step lib) (FetchesExpected lib (s.stored lib)) { store := s } events :=
  along_of_step (I := Inv lib (s.stored lib)) (fun _ _ _ hs hi => step_inv hlib hs hi)
    (fun _ _ _ _ hi => fetchesExpected hi)
    ⟨htidy, fun _ => Or.inr rfl⟩ events

/-! ## What lasts -/

/-- A fetch from a card that reads the file gives what has been committed with Ok, up to its first NUL. -/
def Lasting (lib : CJson δ) (k : Committed) : Prop := ∀ id v, k.committed id = some v → ∀ card : Card,
  card.Reads k.store.bytes →
    (fetch lib card k.store id).2 = .ok ∧ (fetch lib card k.store id).1.variant id = v.upToNul

/-- A commit that is answered with Ok is written whole, and is short enough to be read again. -/
def WritesWhole (lib : CJson δ) (k : Committed) (e : Event) : Prop :=
  match e with
  | .commit id v card => (∃ s', commit lib card (k.store.set id v) id = some (s', .ok)) →
    ∀ item, encode (description id).parameterType v = some item →
      (written lib k.store id item).length ≤ card.nwritten ∧ (written lib k.store id item).length ≤ kFileSizeUpperThreshold
  | _ => True

/-- What has been committed with Ok is in the file, which is short enough. -/
structure LastInv (lib : CJson δ) (k : Committed) : Prop where
  tidy : Tidy lib k.store
  readable : (∃ id v, k.committed id = some v) → k.store.Readable
  stored : ∀ id v, k.committed id = some v → k.store.stored lib id = some v.upToNul

section
variable {lib : CJson δ} {k k' : Committed} {e : Event} {s : Store} {id : Id} {v : Variant}

theorem fetch_of_reads {card : Card} (h : card.Reads s.bytes) :
    (fetch lib card s id).2 = .ok ∧ (fetch lib card s id).1.variant id = v ↔ s.Readable ∧ s.stored lib id = some v := by
  rcases fetch_cases lib card s id with ⟨hshort, w, hstored, heq⟩ | ⟨hnone, file, res, heq, hres, -⟩
  · rw [heq, hstored]
    simp [hshort, Store.set]
  · rw [heq]
    refine iff_of_false (fun hok => hres hok.1) fun hok => ?_
    rw [hnone h hok.1] at hok
    cases hok.2

theorem lasting_iff : Lasting lib k ↔
    ∀ id v, k.committed id = some v → k.store.Readable ∧ k.store.stored lib id = some v.upToNul := by
  constructor
  · intro h id v hv
    have hreads : (⟨(true, true), true, k.store.bytes.length, (true, true), true, 0⟩ : Card).Reads k.store.bytes :=
      ⟨rfl, rfl, Nat.le_refl _⟩
    exact (fetch_of_reads hreads).mp (h id v hv _ hreads)
  · intro h id v hv card hreads
    exact (fetch_of_reads hreads).mpr (h id v hv)

theorem LastInv.lasting (h : LastInv lib k) : Lasting lib k :=
  lasting_iff.mpr fun id v hv => ⟨h.readable ⟨id, v, hv⟩, h.stored id v hv⟩

/-- A step that leaves the bytes, or finds a file without entries, leaves what has been committed. -/
theorem LastInv.of_bytes (h : LastInv lib k) (hcommitted : k'.committed = k.committed)
    (hbytes : k'.store.bytes = k.store.bytes) : LastInv lib k' := by
  have hentries : k'.store.entries lib = k.store.entries lib := by rw [Store.entries, hbytes, Store.entries]
  refine ⟨fun j => ?_, fun hsome => ?_, fun id v hv => ?_⟩
  · rw [hentries]
    exact h.tidy j
  · rw [hcommitted] at hsome
    rw [Store.Readable, hbytes]
    exact h.readable hsome
  · rw [hcommitted] at hv
    rw [Store.stored, hentries]
    exact h.stored id v hv

theorem LastInv.of_entries_nil (h : LastInv lib k) (hcommitted : k'.committed = k.committed)
    (hnil : k.store.entries lib = []) (hnil' : k'.store.entries lib = []) : LastInv lib k' := by
  have hnone : ∀ id v, k'.committed id ≠ some v := by
    intro id v hv
    rw [hcommitted] at hv
    have hstored := h.stored id v hv
    rw [stored_of_entries_nil hnil] at hstored
    cases hstored
  exact ⟨tidy_of_entries_nil hnil', fun ⟨id, v, hv⟩ => absurd hv (hnone id v), fun id v hv => absurd hv (hnone id v)⟩

theorem fetch_lastInv (hlib : lib.Lawful) (h : LastInv lib k) (id : Id) (card : Card) :
    LastInv lib { k with store := (fetch lib card k.store id).1 } := by
  rcases fetch_cases lib card k.store id with ⟨-, v, -, heq⟩ | ⟨-, file, res, heq, -, hkept⟩
  · refine h.of_bytes rfl ?_
    rw [heq]
    rfl
  · rw [heq]
    rcases hkept with hbytes | ⟨hnil, hstub⟩
    · exact h.of_bytes rfl hbytes
    · exact h.of_entries_nil rfl hnil ((entries_of_kept hlib (Or.inr ⟨hnil, hstub⟩) rfl).trans hnil)

/-- A commit leaves what lasts exactly when it is written whole. -/
theorem commit_lasts_iff (hlib : lib.Lawful) (h : LastInv lib k) {card : Card}
    (hs : step lib k (.commit id v card) = some k') :
    (WritesWhole lib k (.commit id v card) → LastInv lib k') ∧
    (Lasting lib k' → WritesWhole lib k (.commit id v card)) := by
  obtain ⟨⟨s', res⟩, hcommit, rfl⟩ := Option.map_eq_some_iff.mp hs
  rcases commit_outcome hcommit with ⟨hres, hbytes⟩ | ⟨-, rfl, item, hitem, hfile⟩
  · refine ⟨fun _ => h.of_bytes (if_neg hres) hbytes, fun _ hok => ?_⟩
    rcases hok with ⟨s'', hok⟩
    rw [hcommit] at hok
    exact absurd (Prod.mk.inj (Option.some_inj.mp hok)).2 hres
  · have hbytes : s'.bytes = (written lib k.store id item).take card.nwritten := by
      rw [Store.bytes, hfile, Option.getD_some]
    obtain ⟨htidy, hcases⟩ := stored_of_written hlib h.tidy hitem hfile
    constructor
    · intro hwhole
      obtain ⟨hwritten, hshort⟩ := hwhole ⟨s', hcommit⟩ item hitem
      rcases hcases with ⟨-, hself, hothers⟩ | ⟨hpart, -⟩
      · refine ⟨htidy, fun _ => ?_, fun j w hj => ?_⟩
        · show s'.bytes.length ≤ _
          rw [hbytes, List.take_of_length_le hwritten]
          exact hshort
        · dsimp only at hj ⊢
          rw [if_pos rfl] at hj
          by_cases hjid : j = id
          · subst hjid
            rw [if_pos rfl] at hj
            obtain rfl := Option.some_inj.mp hj
            exact hself
          · rw [if_neg hjid] at hj
            rw [hothers j hjid]
            exact h.stored j w hj
      · exact absurd hpart (Nat.not_lt.mpr hwritten)
    · intro hlasting _ item' hitem'
      obtain rfl := Option.some_inj.mp (hitem'.symm.trans hitem)
      have hcommitted : (if (Result.ok : Result) = .ok then fun i => if i = id then some v else k.committed i
          else k.committed) id = some v := by simp
      obtain ⟨hshort, hstored⟩ := lasting_iff.mp hlasting id v hcommitted
      rcases hcases with ⟨hwritten, -⟩ | ⟨-, hlost⟩
      · refine ⟨hwritten, ?_⟩
        have hlength : s'.bytes.length ≤ kFileSizeUpperThreshold := hshort
        rwa [hbytes, List.take_of_length_le hwritten] at hlength
      · rw [hlost id] at hstored
        cases hstored

theorem step_lastInv (hlib : lib.Lawful) (hs : step lib k e = some k') (h : LastInv lib k) (hwhole : WritesWhole lib k e) :
    LastInv lib k' := by
  cases e with
  | commit id v card => exact (commit_lasts_iff hlib h hs).1 hwhole
  | fetch id card =>
    obtain rfl := Option.some_inj.mp hs
    exact fetch_lastInv hlib h id card
  | restart =>
    obtain rfl := Option.some_inj.mp hs
    exact h.of_bytes rfl rfl

theorem step_lasting_iff (hlib : lib.Lawful) (hs : step lib k e = some k') (h : LastInv lib k) :
    Lasting lib k' ↔ WritesWhole lib k e := by
  refine ⟨fun hlasting => ?_, fun hwhole => (step_lastInv hlib hs h hwhole).lasting⟩
  cases e with
  | commit id v card => exact (commit_lasts_iff hlib h hs).2 hlasting
  | fetch id card => trivial
  | restart => trivial

end

/-- **A short write costs every parameter.** Throughout a run on a card that answers as it likes, all that has been
    committed with Ok can be read again exactly when no commit that is answered with Ok is cut short by the
    card, or longer than what is read. -/
theorem commits_last_iff {lib : CJson δ} (hlib : lib.Lawful) (s : Store) (htidy : Tidy lib s) (events : List Event) :
    Along (step lib) (fun _ _ k' => Lasting lib k') { store := s } events ↔
      Along (step lib) (fun k e _ => WritesWhole lib k e) { store := s } events :=
  along_iff_along (I := LastInv lib) (fun _ _ _ hs hi hwhole => step_lastInv hlib hs hi hwhole)
    (fun _ _ _ hs hi => step_lasting_iff hlib hs hi) ⟨htidy, fun ⟨_, _, hnone⟩ => (nomatch hnone), nofun⟩

/-! ## A printer that closes its objects -/

/-- A text that ends with its only closing brace, and is not that of an empty object. -/
structure Closed (text : CString) : Prop where
  opens : 123 ∈ text.1
  closes : 125 ∈ text.1
  once : 125 ∉ text.1.dropLast
  notStub : text.1 ≠ ascii "\x7b\x7d"

/-- A number in unary, with the brace behind it. -/
def closedUnary (n : Nat) : List UInt8 := List.replicate n 49 ++ [125]

/-- One root is printed as cJSON prints it, any other in unary. -/
def closing (known : Root Empty) (text : CString) : CJson Empty where
  parse read :=
    if read = text then some known
    else if read.1 = ascii "\x7b\x7d" then some (.object [])
    else if read.1 = closedUnary (read.1.length - 1) then Encodable.decode (read.1.length - 1)
    else none
  print root :=
    if Encodable.encode root = Encodable.encode known then text
    else ⟨closedUnary (Encodable.encode root), by simp [closedUnary]⟩

section
variable {known : Root Empty} {text : CString}

theorem print_known : (closing known text).print known = text := if_pos rfl

theorem parse_text : (closing known text).parse text = some known := if_pos rfl

/-- Nothing without a closing brace is parsed. -/
theorem parse_of_open (htext : Closed text) {read : CString} (h : 125 ∉ read.1) :
    (closing known text).parse read = none := by
  have hne : read ≠ text := by
    rintro rfl
    exact h htext.closes
  have hstub : read.1 ≠ ascii "\x7b\x7d" := by
    intro heq
    rw [heq] at h
    exact h (by decide)
  have hunary : read.1 ≠ closedUnary (read.1.length - 1) := by
    intro heq
    rw [heq] at h
    exact h (List.mem_append_right _ List.mem_cons_self)
  dsimp only [closing]
  rw [if_neg hne, if_neg hstub, if_neg hunary]

theorem parse_of_take (htext : Closed text) {read : List UInt8} {n : Nat} (h : 125 ∉ read.dropLast) (hn : n < read.length)
    (hnul : 0 ∉ read) : (closing known text).parse (cStr (read.take n)) = none := by
  rw [cStr_of_notMem fun hmem => hnul (List.mem_of_mem_take hmem)]
  have htake : read.take n = read.dropLast.take n := by
    rw [List.dropLast_eq_take, List.take_take, Nat.min_eq_left (by omega)]
  refine parse_of_open htext fun hmem => h (List.mem_of_mem_take (i := n) ?_)
  rw [← htake]
  exact hmem

theorem closing_lawful (htext : Closed text) : (closing known text).Lawful where
  inverts root := by
    dsimp only [closing]
    by_cases hroot : Encodable.encode root = Encodable.encode known
    · rw [if_pos hroot, if_pos rfl, Encodable.encode_injective hroot]
    · have hopen : 123 ∉ closedUnary (Encodable.encode root) := by simp [closedUnary]
      have hknown : ∀ h, (⟨closedUnary (Encodable.encode root), h⟩ : CString) ≠ text := by
        rintro h rfl
        exact hopen htext.opens
      have hstub : closedUnary (Encodable.encode root) ≠ ascii "\x7b\x7d" := by
        intro heq
        rw [heq] at hopen
        exact hopen (by decide)
      have hlength : (closedUnary (Encodable.encode root)).length - 1 = Encodable.encode root := by simp [closedUnary]
      rw [if_neg hroot, if_neg (hknown _)]
      dsimp only
      rw [if_neg hstub, hlength, if_pos rfl, Encodable.encodek]
  part entries n hn := by
    refine parse_of_take htext ?_ hn ((closing known text).print _).2
    dsimp only [closing]
    split
    · exact htext.once
    · simp [closedUnary]
  stub := by
    dsimp only [closing]
    rw [if_neg fun heq => htext.notStub (congrArg Subtype.val heq).symm, if_pos (by decide)]
  partOfStub n hn := parse_of_take htext (by decide) hn (by decide)

/-- A new card has no entries. -/
theorem entries_of_empty_file (htext : Closed text) : Store.entries (closing known text) {} = [] :=
  entries_of_none (parse_of_open htext (by decide))

end

/-- The object with the name is printed as it is. -/
def naming : CJson Empty := closing namedA namedAText

theorem namedAText_closed : Closed namedAText := ⟨by decide, by decide, by decide, by decide⟩

theorem naming_lawful : naming.Lawful := closing_lawful namedAText_closed

theorem entries_of_new_card : Store.entries naming {} = [] := entries_of_empty_file namedAText_closed

theorem written_on_new_card : written naming {} 0 (.string (cStr (ascii "a"))) = namedAText.1 := by
  rw [written, entries_of_new_card]
  exact congrArg Subtype.val print_known

def good : Card := ⟨(true, true), true, 4096, (true, true), true, 4096⟩

/-- It stores ten bytes of what is written. -/
def tenBytes : Card := { good with nwritten := 10 }

theorem commit_on_new_card (card : Card) (h : card = good ∨ card = tenBytes) :
    ∃ s', commit naming card (Store.set {} 0 (.str (ascii "a"))) 0 = some (s', .ok) := by
  rcases h with rfl | rfl
  · exact ⟨_, rfl⟩
  · exact ⟨_, rfl⟩

/-- The name is committed and fetched, and committed again by a short write. -/
theorem fetched_is_what_was_committed_twice :
    Along (step naming) (FetchesExpected naming (Store.stored naming {})) { store := {} }
      [.commit 0 (.str (ascii "a")) good, .fetch 0 good, .commit 0 (.str (ascii "a")) tenBytes, .restart, .fetch 0 good] :=
  fetched_is_what_was_committed naming_lawful {} (tidy_of_entries_nil entries_of_new_card) _

/-- On a new card the name lasts if it is written whole, and is lost with a short write. -/
theorem a_short_write_loses_the_name :
    Along (step naming) (fun _ _ k' => Lasting naming k') { store := {} } [.commit 0 (.str (ascii "a")) good] ∧
      ¬ Along (step naming) (fun _ _ k' => Lasting naming k') { store := {} } [.commit 0 (.str (ascii "a")) tenBytes] := by
  have htidy := tidy_of_entries_nil entries_of_new_card
  constructor
  · refine (commits_last_iff naming_lawful {} htidy _).mpr fun k' _ => ⟨fun _ item hitem => ?_, trivial⟩
    obtain rfl := Option.some_inj.mp hitem
    show (written naming {} 0 _).length ≤ _ ∧ (written naming {} 0 _).length ≤ _
    rw [written_on_new_card]
    decide
  · intro hlasting
    obtain ⟨s', hcommit⟩ := commit_on_new_card tenBytes (Or.inr rfl)
    have hstep : ∃ k', step naming { store := {} } (.commit 0 (.str (ascii "a")) tenBytes) = some k' := by
      rw [step, hcommit]
      exact ⟨_, rfl⟩
    obtain ⟨k', hstep⟩ := hstep
    have hwhole := ((commits_last_iff naming_lawful {} htidy _).mp hlasting k' hstep).1 ⟨s', hcommit⟩ _ rfl
    have hlength : (written naming {} 0 (.string (cStr (ascii "a")))).length ≤ 10 := hwhole.1
    rw [written_on_new_card] at hlength
    exact absurd hlength (by decide)

end CardFaults

end Esp32Cam.Mod.Par
