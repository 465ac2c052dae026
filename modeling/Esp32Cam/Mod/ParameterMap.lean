/-
  Esp32Cam.Mod.ParameterMap — the parameters as a map.

  `MapLaw` is what is asked of every operation: a commit that is answered with Ok is what
  a fetch right behind it reads, it changes no other stored value, and no operation fails
  behind it that did not before; a fetch reads what has been committed last, and once a
  commit has been answered with Ok, all are.

  `parameters_are_a_map_iff`: a run of operations on any file keeps to it exactly when every
  commit does that is answered with Ok (`Sound`): its value has no NUL in it, the file it
  leaves is not longer than what is read again, and no second entry of its name is in the
  file. A file that starts without such entries never gets one (`tidy_step`).
  `a_string_is_cut_at_its_nul` is the shortest run that does not.
-/

import Mathlib.Data.Rat.Denumerable
import Mathlib.Logic.Equiv.List
import Esp32Cam.Lib.PartialRun
import Esp32Cam.Mod.Parameter

namespace Esp32Cam.Mod.Par

open Esp32Cam.Lib Esp32Cam.Lib.PartialRun Esp32Cam.Mod.Par.SdMemoryProvider

variable {δ : Type} {lib : CJson δ}

/-! ## What the file says -/

namespace Store

def bytes (s : Store) : List UInt8 := s.file.getD []

def Readable (s : Store) : Prop := s.bytes.length ≤ kFileSizeUpperThreshold

def entries (lib : CJson δ) (s : Store) : List (CString × Item δ) := entriesOf lib (cStr s.bytes)

def stored (lib : CJson δ) (s : Store) (id : Id) : Option Variant :=
  (Entries.lookup (nameOf id) (s.entries lib)).bind (decode (description id).parameterType)

end Store

theorem provider_sd : ∀ id : Id, (description id).memoryProviderType = .sd := by decide

/-- The names of the parameters differ in more than their case. -/
theorem names_differ : ∀ i j : Id, i ≠ j → sameIgnoringCase (nameOf i) (nameOf j) = false := by decide

theorem same_refl (n : CString) : sameIgnoringCase n n = true := beq_self_eq_true _

theorem same_trans {a b c : CString} (hab : sameIgnoringCase a b = true) (hbc : sameIgnoringCase b c = false) :
    sameIgnoringCase a c = false := by
  unfold sameIgnoringCase at *
  rw [beq_iff_eq] at hab
  rw [hab]
  exact hbc

theorem names_ne {i j : Id} (h : i ≠ j) : nameOf i ≠ nameOf j := by
  intro heq
  have hdiffer := names_differ i j h
  rw [heq, same_refl] at hdiffer
  cases hdiffer

section
variable {s : Store} {id : Id} {v : Variant}

/-- A fetch reads what the file says, if it is short enough. -/
theorem fetch_cases (lib : CJson δ) (s : Store) (id : Id) :
    (s.Readable ∧ ∃ v, s.stored lib id = some v ∧ s.fetch lib id = (({ s with file := some s.bytes } : Store).set id v, .ok)) ∨
    ((s.Readable → s.stored lib id = none) ∧ ∃ file res,
      s.fetch lib id = (({ s with file } : Store).set id (s.variant id), res) ∧ res ≠ .ok ∧
        (file = some s.bytes ∨ s.entries lib = [] ∧ file = some (ascii "\x7b\x7d"))) := by
  unfold Store.fetch
  rw [provider_sd]
  dsimp only
  unfold load Store.Readable Store.stored Store.entries entriesOf configFileRead Store.bytes configFileEnsureExists
  by_cases hlen : (s.file.getD []).length > kFileSizeUpperThreshold
  · refine Or.inr ⟨fun h => absurd h (Nat.not_le.mpr hlen), ?_⟩
    simp only [if_pos hlen]
    exact ⟨_, _, rfl, nofun, Or.inl rfl⟩
  · have hread := Nat.not_lt.mp hlen
    simp only [if_neg hlen]
    cases hparse : lib.parse (cStr (s.file.getD [])) with
    | none => exact Or.inr ⟨fun _ => rfl, _, _, rfl, nofun, Or.inr ⟨rfl, rfl⟩⟩
    | some root =>
      cases root with
      | item value => exact Or.inr ⟨fun _ => rfl, _, _, rfl, nofun, Or.inl rfl⟩
      | object entries =>
        dsimp only [nameOf]
        cases hlookup : Entries.lookup (cStr (description id).name) entries with
        | none => exact Or.inr ⟨fun _ => rfl, _, _, rfl, nofun, Or.inl rfl⟩
        | some item =>
          dsimp only [Option.bind_some]
          cases hdecode : decode (description id).parameterType item with
          | none => exact Or.inr ⟨fun _ => rfl, _, _, rfl, nofun, Or.inl rfl⟩
          | some v => exact Or.inl ⟨hread, v, rfl, rfl⟩

theorem fetch_ok_iff : (s.fetch lib id).2 = .ok ↔ s.Readable ∧ ∃ v, s.stored lib id = some v := by
  rcases fetch_cases lib s id with ⟨hread, v, hstored, heq⟩ | ⟨hnone, file, res, heq, hres, -⟩
  · rw [heq]
    exact iff_of_true rfl ⟨hread, v, hstored⟩
  · rw [heq]
    refine iff_of_false hres ?_
    intro h
    rcases h with ⟨hread, v, hstored⟩
    rw [hnone hread] at hstored
    cases hstored

def written (lib : CJson δ) (s : Store) (id : Id) (item : Item δ) : List UInt8 :=
  (lib.print (.object (Entries.replace sameIgnoringCase (nameOf id) item (s.entries lib)))).1

/-- A commit is answered with Ok where the file can be read. -/
theorem commit_cases {s' : Store} {res : Result} (h : (s.set id v).commit lib id = some (s', res)) :
    (¬ s.Readable ∧ res ≠ .ok ∧ s'.bytes = s.bytes) ∨
    (s.Readable ∧ res = .ok ∧ ∃ item, encode (description id).parameterType v = some item ∧
      s'.file = some (written lib s id item)) := by
  unfold Store.commit at h
  rw [provider_sd] at h
  obtain ⟨⟨file, res'⟩, hsave, heq⟩ := Option.map_eq_some_iff.mp h
  obtain ⟨rfl, rfl⟩ := Prod.mk.inj heq
  have hv : (s.set id v).variant id = v := if_pos rfl
  rw [hv] at hsave
  unfold save configFileRead at hsave
  by_cases hlen : s.bytes.length > kFileSizeUpperThreshold
  · rw [show configFileEnsureExists (s.set id v).file = s.bytes from rfl] at hsave
    dsimp only at hsave
    rw [if_pos hlen] at hsave
    obtain ⟨rfl, rfl⟩ := Prod.mk.inj (Option.some_inj.mp hsave)
    exact Or.inl ⟨Nat.not_le.mpr hlen, nofun, rfl⟩
  · rw [show configFileEnsureExists (s.set id v).file = s.bytes from rfl] at hsave
    dsimp only at hsave
    rw [if_neg hlen] at hsave
    obtain ⟨item, hitem, heq⟩ := Option.map_eq_some_iff.mp hsave
    obtain ⟨rfl, rfl⟩ := Prod.mk.inj heq
    exact Or.inr ⟨Nat.not_lt.mp hlen, rfl, item, hitem, rfl⟩

theorem commit_isSome_of_encode {item : Item δ} (hread : s.Readable)
    (hitem : encode (description id).parameterType v = some item) :
    ((s.set id v).commit lib id).map Prod.snd = some .ok := by
  have hv : (s.set id v).variant id = v := if_pos rfl
  unfold Store.commit
  rw [provider_sd]
  dsimp only
  unfold save configFileRead
  rw [hv, show configFileEnsureExists (s.set id v).file = s.bytes from rfl]
  dsimp only
  rw [if_neg (Nat.not_lt.mpr hread), hitem]
  rfl

/-! ## What a commit leaves -/

/-- A value without a NUL. -/
def Variant.NoNul : Variant → Prop
  | .str value => 0 ∉ value
  | _ => True

theorem toInt32_intCast (i : Int32) : toInt32 (i.toInt : Rat) = i := by
  simp [toInt32]

/-- A value comes back from its item exactly when it has no NUL. -/
theorem decode_encode {t : ParameterType} {item : Item δ} (h : encode t v = some item) :
    decode t item = some v ↔ v.NoNul := by
  cases t with
  | i32 =>
    cases v with
    | i32 value =>
      obtain rfl := Option.some_inj.mp h
      rw [decode, toInt32_intCast]
      exact iff_of_true rfl trivial
    | _ => cases h
  | str =>
    cases v with
    | str value =>
      obtain rfl := Option.some_inj.mp h
      simp only [decode, Option.some_inj, Variant.str.injEq, Variant.NoNul]
      constructor
      · intro heq
        rw [← heq]
        exact (cStr value).2
      · intro hnul
        rw [cStr_of_notMem hnul]
    | _ => cases h

/-- The entry of the parameter's name that the commit does not replace. -/
def leftOver (lib : CJson δ) (s : Store) (id : Id) : Option (Item δ) :=
  Entries.lookup (nameOf id) (Entries.delete sameIgnoringCase (nameOf id) (s.entries lib))

variable {s' : Store} {item : Item δ}

theorem entries_written (hlib : lib.Inverts) (h : s'.file = some (written lib s id item)) :
    s'.entries lib = Entries.replace sameIgnoringCase (nameOf id) item (s.entries lib) := by
  rw [Store.entries, Store.bytes, h, Option.getD_some, written, cStr_val, entriesOf, hlib]

/-- The other parameters keep their values. -/
theorem stored_other (hlib : lib.Inverts) (h : s'.file = some (written lib s id item)) {j : Id} (hj : j ≠ id) :
    s'.stored lib j = s.stored lib j := by
  rw [Store.stored, entries_written hlib h, Entries.lookup_replace_ne (names_differ j id hj) (names_ne hj)]
  rfl

theorem stored_self (hlib : lib.Inverts) (h : s'.file = some (written lib s id item)) :
    s'.stored lib id = decode (description id).parameterType ((leftOver lib s id).getD item) := by
  rw [Store.stored, entries_written hlib h, Entries.lookup_replace_self]
  rfl

end

/-! ## Operations -/

inductive Op where
  | commit (id : Id) (value : Variant)
  | fetch (id : Id)
  deriving DecidableEq

structure Kept where
  store : Store
  committed : Id → Option Variant := fun _ => none

def answer (lib : CJson δ) (s : Store) : Op → Option Result
  | .commit id value => ((s.set id value).commit lib id).map Prod.snd
  | .fetch id => some (s.fetch lib id).2

def step (lib : CJson δ) (k : Kept) : Op → Option Kept
  | .commit id value => ((k.store.set id value).commit lib id).map fun (store, res) =>
    { store, committed := if res = .ok then fun i => if i = id then some value else k.committed i else k.committed }
  | .fetch id => some { k with store := (k.store.fetch lib id).1 }

def Reads (lib : CJson δ) (s : Store) (id : Id) (v : Variant) : Prop :=
  (s.fetch lib id).2 = .ok ∧ (s.fetch lib id).1.variant id = v

/-- What a commit answered with Ok has to leave. -/
structure Committed (lib : CJson δ) (s : Store) (id : Id) (v : Variant) (s' : Store) : Prop where
  reads : Reads lib s' id v
  others : ∀ j, j ≠ id → s'.stored lib j = s.stored lib j
  answers : ∀ op, answer lib s op = some .ok → answer lib s' op = some .ok

def MapLaw (lib : CJson δ) (k : Kept) (op : Op) (k' : Kept) : Prop :=
  match op with
  | .commit id v => (answer lib k.store op = some .ok → Committed lib k.store id v k'.store) ∧
    ((∃ j w, k.committed j = some w) → answer lib k.store op = some .ok)
  | .fetch id => ∀ v, k.committed id = some v → Reads lib k.store id v

/-- The commit leaves a file that can be read, and the value itself: it has no NUL in it, or
    an entry that is left over has it already. -/
def Keeps (lib : CJson δ) (s : Store) (id : Id) (v : Variant) : Prop :=
  ∀ item, encode (description id).parameterType v = some item →
    (written lib s id item).length ≤ kFileSizeUpperThreshold ∧
      match leftOver lib s id with
      | none => v.NoNul
      | some left => decode (description id).parameterType left = some v

/-- A commit that is answered with Ok keeps what it commits. -/
def Sound (lib : CJson δ) (s : Store) (op : Op) : Prop :=
  match op with
  | .commit id v => answer lib s op = some .ok → Keeps lib s id v
  | .fetch _ => True

section
variable {s s' : Store} {id : Id} {v : Variant} {item : Item δ} {k k' : Kept} {op : Op}

theorem reads_iff : Reads lib s id v ↔ s.Readable ∧ s.stored lib id = some v := by
  unfold Reads
  rcases fetch_cases lib s id with ⟨hread, w, hstored, heq⟩ | ⟨hnone, file, res, heq, hres, -⟩
  · rw [heq, hstored]
    simp [hread, Store.set]
  · rw [heq]
    refine iff_of_false (fun h => hres h.1) ?_
    intro h
    rcases h with ⟨hread, hstored⟩
    rw [hnone hread] at hstored
    cases hstored

theorem keeps_iff (hlib : lib.Inverts) (hitem : encode (description id).parameterType v = some item)
    (h : s'.file = some (written lib s id item)) : Keeps lib s id v ↔ Reads lib s' id v := by
  have hbytes : s'.bytes = written lib s id item := by rw [Store.bytes, h, Option.getD_some]
  rw [reads_iff, stored_self hlib h, Store.Readable, hbytes]
  have hvalue : (match leftOver lib s id with
      | none => v.NoNul
      | some left => decode (description id).parameterType left = some v) ↔
      decode (description id).parameterType ((leftOver lib s id).getD item) = some v := by
    cases leftOver lib s id with
    | none => exact (decode_encode hitem).symm
    | some left => exact Iff.rfl
  rw [← hvalue]
  constructor
  · intro hkeeps
    exact hkeeps item hitem
  · intro hreads item' hitem'
    obtain rfl := Option.some_inj.mp (hitem'.symm.trans hitem)
    exact hreads

/-- Where the committed value is read again, nothing fails that did not fail before. -/
theorem committed_iff (hlib : lib.Inverts)
    (hitem : encode (description id).parameterType v = some item) (h : s'.file = some (written lib s id item)) :
    Committed lib s id v s' ↔ Keeps lib s id v := by
  rw [keeps_iff hlib hitem h]
  refine ⟨Committed.reads, fun hreads => ⟨hreads, fun j hj => stored_other hlib h hj, fun op hop => ?_⟩⟩
  have hread' : s'.Readable := (reads_iff.mp hreads).1
  cases op with
  | commit j w =>
    obtain ⟨⟨s₁, res⟩, hcommit, rfl⟩ := Option.map_eq_some_iff.mp hop
    rcases commit_cases hcommit with ⟨-, hres, -⟩ | ⟨-, -, item', hitem', -⟩
    · exact absurd rfl hres
    · exact commit_isSome_of_encode hread' hitem'
  | fetch j =>
    have hok := fetch_ok_iff.mp (Option.some_inj.mp hop)
    refine congrArg some (fetch_ok_iff.mpr ⟨hread', ?_⟩)
    by_cases hj : j = id
    · rw [hj]
      exact ⟨v, (reads_iff.mp hreads).2⟩
    · rw [stored_other hlib h hj]
      exact hok.2

theorem step_of_answer {res : Result} (h : answer lib k.store (.commit id v) = some res) :
    ∃ k', step lib k (.commit id v) = some k' := by
  rw [answer, Option.map_eq_some_iff] at h
  obtain ⟨⟨s', res'⟩, hcommit, -⟩ := h
  rw [step, hcommit]
  exact ⟨_, rfl⟩

/-- What has been committed is in the file, and the file can be read. -/
def Inv (lib : CJson δ) (k : Kept) : Prop := ∀ id v, k.committed id = some v → Reads lib k.store id v

theorem init_inv (lib : CJson δ) (s : Store) : Inv lib { store := s } := by
  intro id v h
  cases h

theorem inv_step (hlib : lib.Inverts) (hi : Inv lib k) (hsound : Sound lib k.store op) (h : step lib k op = some k') :
    Inv lib k' := by
  cases op with
  | commit id v =>
    obtain ⟨⟨s', res⟩, hcommit, rfl⟩ := Option.map_eq_some_iff.mp h
    rcases commit_cases hcommit with ⟨hlong, hres, -⟩ | ⟨hread, rfl, item, hitem, hfile⟩
    · -- nothing has been committed to a file that cannot be read
      intro j w hj
      dsimp only at hj
      rw [if_neg hres] at hj
      exact absurd (reads_iff.mp (hi j w hj)).1 hlong
    · have hcommitted := (committed_iff hlib hitem hfile).mpr (hsound (commit_isSome_of_encode hread hitem))
      intro j w hj
      dsimp only at hj
      rw [if_pos rfl] at hj
      by_cases hjid : j = id
      · subst hjid
        rw [if_pos rfl] at hj
        obtain rfl := Option.some_inj.mp hj
        exact hcommitted.reads
      · rw [if_neg hjid] at hj
        refine reads_iff.mpr ⟨(reads_iff.mp hcommitted.reads).1, ?_⟩
        rw [hcommitted.others j hjid]
        exact (reads_iff.mp (hi j w hj)).2
  | fetch id =>
    obtain rfl := Option.some_inj.mp h
    intro j w hj
    obtain ⟨hread, hstored⟩ := reads_iff.mp (hi j w hj)
    have hbytes : (k.store.fetch lib id).1.bytes = k.store.bytes := by
      rcases fetch_cases lib k.store id with ⟨-, v, -, heq⟩ | ⟨-, file, res, heq, -, hfile⟩
      · rw [heq]
        rfl
      · rw [heq]
        rcases hfile with rfl | ⟨hempty, -⟩
        · rfl
        · -- a file that does not parse has no value
          rw [Store.stored, hempty] at hstored
          cases hstored
    rw [reads_iff]
    unfold Store.Readable Store.stored Store.entries at *
    rw [hbytes]
    exact ⟨hread, hstored⟩

theorem mapLaw_iff (hlib : lib.Inverts) (hi : Inv lib k) (h : step lib k op = some k') :
    MapLaw lib k op k' ↔ Sound lib k.store op := by
  cases op with
  | commit id v =>
    obtain ⟨⟨s', res⟩, hcommit, rfl⟩ := Option.map_eq_some_iff.mp h
    have hanswer : answer lib k.store (.commit id v) = some res := by
      rw [answer, hcommit]
      rfl
    unfold MapLaw Sound
    dsimp only
    rw [hanswer]
    rcases commit_cases hcommit with ⟨hlong, hres, -⟩ | ⟨hread, rfl, item, hitem, hfile⟩
    · have hno : some res ≠ some Result.ok := fun heq => hres (Option.some_inj.mp heq)
      refine iff_of_true ⟨fun heq => absurd heq hno, ?_⟩ (fun heq => absurd heq hno)
      intro h
      rcases h with ⟨j, w, hj⟩
      exact absurd (reads_iff.mp (hi j w hj)).1 hlong
    · rw [committed_iff hlib hitem hfile]
      simp
  | fetch id => exact iff_of_true (fun v hv => hi id v hv) trivial

end

/-! ## A map -/

/-- **Parameter store.** For every file to begin with and every sequence of commits and
    fetches: the store is a map of the parameters exactly when every commit that is
    answered with Ok leaves a file that is short enough to be read again, and a value
    without a NUL that no other entry of the parameter's name stands in front of. -/
theorem parameters_are_a_map_iff (hlib : lib.Inverts) (s : Store) (ops : List Op) :
    Along (step lib) (MapLaw lib) { store := s } ops ↔
      Along (step lib) (fun k op _ => Sound lib k.store op) { store := s } ops :=
  along_iff_along (I := Inv lib) (fun _ _ _ h hi hsound => inv_step hlib hi hsound h)
    (fun _ _ _ h hi => mapLaw_iff hlib hi h) (init_inv lib s)

/-! ## A file without second entries -/

/-- No two entries of the file have a parameter's name, in whatever case. -/
def Tidy (lib : CJson δ) (s : Store) : Prop := ∀ id, Entries.Single sameIgnoringCase (nameOf id) (s.entries lib)

section
variable {s : Store} {k k' : Kept} {op : Op}

theorem leftOver_of_tidy (h : Tidy lib s) (id : Id) : leftOver lib s id = none :=
  (h id).lookup_delete (same_refl _)

theorem tidy_written (hlib : lib.Inverts) (h : Tidy lib s) {s' : Store} {id : Id} {item : Item δ}
    (hfile : s'.file = some (written lib s id item)) : Tidy lib s' := by
  intro j
  rw [entries_written hlib hfile]
  by_cases hj : j = id
  · rw [hj]
    exact (h id).replace_self (same_refl _) item
  · have hdiffer := names_differ id j (Ne.symm hj)
    exact (h j).replace_ne (fun i hi => same_trans hi hdiffer) hdiffer item

/-- A file without second entries never gets one; `hstub`: the stub is an empty object. -/
theorem tidy_step (hlib : lib.Inverts) (hstub : lib.parse (cStr (ascii "\x7b\x7d")) = some (.object []))
    (h : Tidy lib k.store) (hstep : step lib k op = some k') : Tidy lib k'.store := by
  cases op with
  | commit id v =>
    obtain ⟨⟨s', res⟩, hcommit, rfl⟩ := Option.map_eq_some_iff.mp hstep
    rcases commit_cases hcommit with ⟨-, -, hbytes⟩ | ⟨-, -, item, -, hfile⟩
    · intro j
      rw [Store.entries, hbytes]
      exact h j
    · exact tidy_written hlib h hfile
  | fetch id =>
    obtain rfl := Option.some_inj.mp hstep
    have hfetch : (k.store.fetch lib id).1.bytes = k.store.bytes ∨
        (k.store.fetch lib id).1.bytes = ascii "\x7b\x7d" := by
      rcases fetch_cases lib k.store id with ⟨-, v, -, heq⟩ | ⟨-, file, res, heq, -, hfile⟩
      · rw [heq]
        exact Or.inl rfl
      · rw [heq]
        rcases hfile with rfl | ⟨-, rfl⟩
        · exact Or.inl rfl
        · exact Or.inr rfl
    rcases hfetch with hbytes | hbytes
    · intro j
      rw [Store.entries, hbytes]
      exact h j
    · intro j
      rw [Store.entries, hbytes, entriesOf, hstub]
      exact Nat.zero_le 1

end

/-! ## A printer of one object -/

instance encodableByte : Encodable UInt8 := Encodable.ofLeftInjection UInt8.toNat (fun n => some (UInt8.ofNat n)) (by simp)

def itemEquiv : Item Empty ≃ Rat ⊕ CString where
  toFun | .number value => .inl value | .string value => .inr value
  invFun | .inl value => .number value | .inr value => .string value
  left_inv
    | .number _ => rfl
    | .string _ => rfl
  right_inv
    | .inl _ => rfl
    | .inr _ => rfl

instance : Encodable (Item Empty) := Encodable.ofEquiv _ itemEquiv

def rootEquiv : Root Empty ≃ List (CString × Item Empty) ⊕ Item Empty where
  toFun | .object entries => .inl entries | .item value => .inr value
  invFun | .inl entries => .object entries | .inr value => .item value
  left_inv
    | .object _ => rfl
    | .item _ => rfl
  right_inv
    | .inl _ => rfl
    | .inr _ => rfl

instance : Encodable (Root Empty) := Encodable.ofEquiv _ rootEquiv

def namedA : Root Empty := .object [(nameOf 0, .string (cStr (ascii "a")))]

def namedAText : CString := cStr (ascii "\x7b\n\t\"WifiApSsid\":\t\"a\"\n\x7d")

/-- The object is printed as cJSON prints it, anything else in unary. -/
def unary : CJson Empty where
  parse text :=
    if text = namedAText then some namedA
    else if text.1.length = 0 then none else Encodable.decode (text.1.length - 1)
  print root :=
    if Encodable.encode root = Encodable.encode namedA then namedAText
    else ⟨List.replicate (Encodable.encode root + 1) 1, by simp⟩

theorem unary_inverts : unary.Inverts := by
  intro root
  dsimp only [unary]
  by_cases hroot : Encodable.encode root = Encodable.encode namedA
  · rw [if_pos hroot, if_pos rfl, Encodable.encode_injective hroot]
  · have hne : ∀ n h, (⟨List.replicate n 1, h⟩ : CString) ≠ namedAText := by
      intro n h heq
      have htext : List.replicate n 1 = namedAText.1 := congrArg Subtype.val heq
      have hbrace : (123 : UInt8) ∈ List.replicate n 1 := by
        rw [htext]
        decide
      exact absurd (List.eq_of_mem_replicate hbrace) (by decide)
    rw [if_neg hroot, if_neg (hne _ _)]
    simp

theorem print_namedA : unary.print namedA = namedAText := by
  dsimp only [unary]
  rw [if_pos rfl]

theorem entries_of_new_card : Store.entries unary {} = [] := rfl

/-- On a new card, the name is committed and fetched. -/
theorem a_name_is_kept :
    Along (step unary) (MapLaw unary) { store := {} } [.commit 0 (.str (ascii "a")), .fetch 0] := by
  refine (parameters_are_a_map_iff unary_inverts {} _).mpr fun k _ => ⟨fun _ item hitem => ?_, fun k' _ => ⟨trivial, trivial⟩⟩
  obtain rfl := Option.some_inj.mp hitem
  refine ⟨?_, ?_⟩
  · rw [written, entries_of_new_card]
    show (unary.print namedA).1.length ≤ _
    rw [print_namedA]
    decide
  · show 0 ∉ ascii "a"
    decide

/-- The letter a, a NUL and another letter. -/
def withNul : List UInt8 := [97, 0, 98]

/-- A NUL and what is behind it are not stored. -/
theorem a_string_is_cut_at_its_nul :
    ¬ Along (step unary) (MapLaw unary) { store := {} } [.commit 0 (.str withNul), .fetch 0] := by
  intro h
  have hitem : encode (description 0).parameterType (.str withNul) = some (Item.string (δ := Empty) (cStr withNul)) := rfl
  have hanswer : answer unary {} (.commit 0 (.str withNul)) = some .ok :=
    commit_isSome_of_encode (s := {}) (Nat.zero_le _) hitem
  obtain ⟨k', hstep⟩ := step_of_answer (k := { store := {} }) hanswer
  have hsound := (mapLaw_iff unary_inverts (init_inv unary {}) hstep).mp (h k' hstep).1
  have hnul : 0 ∉ withNul := (hsound hanswer _ hitem).2
  exact absurd hnul (by decide)

end Esp32Cam.Mod.Par
