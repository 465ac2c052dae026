/-
  Esp32Cam.Mod.Parameter — the parameters kept on the SD card.

  All parameters are entries of one JSON object in one file. A commit reads the file as a
  whole, parses it, replaces the entry and writes the file anew; a fetch reads and parses
  it. Strings pass through cJSON as C strings, up to their first NUL; entries are searched
  for by their exact name, and deleted by their name in whatever case.

  `CJson` is the parser and the printer. The file system has no errors, and the
  comparisons of names are those of the C locale.
-/

import Mathlib
import Esp32Cam.Lib.Entries

namespace Esp32Cam.Mod.Par

open Esp32Cam.Lib

/-! ## cJSON -/

abbrev CString := { s : List UInt8 // 0 ∉ s }

theorem zero_notMem_takeWhile (s : List UInt8) : 0 ∉ s.takeWhile (· ≠ 0) := by
  intro h
  simpa using List.mem_takeWhile_imp h

/-- `std::string::c_str()`, or a buffer, as a C string. -/
def cStr (s : List UInt8) : CString := ⟨s.takeWhile (· ≠ 0), zero_notMem_takeWhile s⟩

theorem cStr_of_notMem {s : List UInt8} (h : 0 ∉ s) : cStr s = ⟨s, h⟩ := by
  refine Subtype.ext (List.takeWhile_eq_self_iff.mpr fun b hb => ?_)
  rw [decide_eq_true_eq]
  intro h
  rcases h with rfl
  exact h hb

@[simp] theorem cStr_val (s : CString) : cStr s.1 = s := cStr_of_notMem s.2

/-- An item: `δ` are the items that are neither numbers nor strings. -/
inductive Item (δ : Type) where
  | number (value : Rat)
  | string (value : CString)
  | other (value : δ)
  deriving DecidableEq

inductive Root (δ : Type) where
  | object (entries : List (CString × Item δ))
  | item (value : Item δ)

/-- `cJSON_Parse` and `cJSON_Print`. -/
structure CJson (δ : Type) where
  parse : CString → Option (Root δ)
  print : Root δ → CString

/-- Parsing inverts printing. -/
def CJson.Inverts {δ : Type} (lib : CJson δ) : Prop := ∀ root, lib.parse (lib.print root) = some root

def tolower (c : UInt8) : UInt8 := if 65 ≤ c ∧ c ≤ 90 then c + 32 else c

/-- `case_insensitive_strcmp`. -/
def sameIgnoringCase (a b : CString) : Bool := a.1.map tolower == b.1.map tolower

/-! ## The parameters -/

inductive Result where
  | ok
  | memoryProviderNotFound
  | sdCardError
  | fileIoError
  | fileFormatError
  | notEnoughMemoryError
  | entryNotFoundError
  | configDoesNotExist
  deriving DecidableEq, Repr

inductive ParameterType where
  | str
  | i32
  deriving DecidableEq, Repr

inductive MemoryProviderType where
  | sd
  | nvs
  deriving DecidableEq, Repr

inductive Module where
  | wifiAp
  | wifiStaConnection
  | other (value : UInt8)
  deriving DecidableEq, Repr

inductive Field where
  | initialized
  | ip
  | netmask
  | gateway
  | stringIdentifier
  | password
  | other (value : UInt8)
  deriving DecidableEq, Repr

inductive Variant where
  | none
  | str (value : List UInt8)
  | i32 (value : Int32)
  deriving DecidableEq

structure ParameterDescription where
  name : List UInt8
  parameterType : ParameterType
  module : Module
  field : Field
  memoryProviderType : MemoryProviderType := .sd
  mirrorField : Bool
  deriving DecidableEq

def ascii (s : String) : List UInt8 := s.toList.map fun c => UInt8.ofNat c.toNat

/-- A parameter's id is its place in the table. -/
def kParameterDescriptions : Vector ParameterDescription 8 := #v[
  { name := ascii "WifiApSsid", parameterType := .str, module := .wifiAp, field := .stringIdentifier, mirrorField := true },
  { name := ascii "WifiApPassword", parameterType := .str, module := .wifiAp, field := .password, mirrorField := true },
  { name := ascii "WifiStaSsid", parameterType := .str, module := .wifiStaConnection, field := .stringIdentifier,
    mirrorField := true },
  { name := ascii "WifiStaPassword", parameterType := .str, module := .wifiStaConnection, field := .password,
    mirrorField := true },
  { name := ascii "WifiStaAutoconn", parameterType := .i32, module := .wifiStaConnection, field := .initialized,
    mirrorField := true },
  { name := ascii "WifiStaNetmask", parameterType := .str, module := .wifiStaConnection, field := .netmask,
    mirrorField := false },
  { name := ascii "WifiStaIp", parameterType := .str, module := .wifiStaConnection, field := .ip, mirrorField := false },
  { name := ascii "WifiStaGateway", parameterType := .str, module := .wifiStaConnection, field := .gateway,
    mirrorField := false }]

abbrev Id := Fin 8

def description (id : Id) : ParameterDescription := kParameterDescriptions[id]

def nameOf (id : Id) : CString := cStr (description id).name

def pardescToId (module : Module) (field : Field) : Option Id :=
  (List.finRange 8).find? fun id => (description id).module = module ∧ (description id).field = field

/-! ## The file -/

abbrev File := Option (List UInt8)

namespace SdMemoryProvider

def kFileSizeUpperThreshold : Nat := 1024 * 4

def configFileEnsureExists (file : File) : List UInt8 := file.getD []

def configFileRead (bytes : List UInt8) : Except Result CString :=
  if bytes.length > kFileSizeUpperThreshold then .error .notEnoughMemoryError else .ok (cStr bytes)

def toInt32 (value : Rat) : Int32 := Int32.ofInt (value.num.tdiv value.den)

/-- The value an item stands for, as one of the type. -/
def decode {δ : Type} : ParameterType → Item δ → Option Variant
  | .i32, .number value => some (.i32 (toInt32 value))
  | .str, .string value => some (.str value.1)
  | _, _ => none

/-- The item a value is stored as; there is none for a value of the other type. -/
def encode {δ : Type} : ParameterType → Variant → Option (Item δ)
  | .i32, .i32 value => some (.number value.toInt)
  | .str, .str value => some (.string (cStr value))
  | _, _ => none

section
variable {δ : Type}

/-- The file behind the load, the result, and the value. -/
def load (lib : CJson δ) (d : ParameterDescription) (file : File) (variant : Variant) : File × Result × Variant :=
  let bytes := configFileEnsureExists file
  match configFileRead bytes with
  | .error e => (some bytes, e, variant)
  | .ok buffer =>
    match lib.parse buffer with
    | none => (some (ascii "\x7b\x7d"), .fileFormatError, variant)
    | some (.item _) => (some bytes, .fileFormatError, variant)
    | some (.object entries) =>
      match Entries.lookup (cStr d.name) entries with
      | none => (some bytes, .entryNotFoundError, variant)
      | some item =>
        match decode d.parameterType item with
        | some value => (some bytes, .ok, value)
        | none => (some bytes, .fileFormatError, variant)

/-- The entries the commit works on: those of an object, else none. -/
def entriesOf (lib : CJson δ) (buffer : CString) : List (CString × Item δ) :=
  match lib.parse buffer with
  | some (.object entries) => entries
  | _ => []

/-- A value of the other type is read unchecked: there the model ends. -/
def save (lib : CJson δ) (d : ParameterDescription) (file : File) (value : Variant) : Option (File × Result) :=
  let bytes := configFileEnsureExists file
  match configFileRead bytes with
  | .error e => some (some bytes, e)
  | .ok buffer => (encode d.parameterType value).map fun item =>
    let entries := Entries.replace sameIgnoringCase (cStr d.name) item (entriesOf lib buffer)
    (some (lib.print (.object entries)).1, .ok)

end

end SdMemoryProvider

/-! ## The operations -/

/-- The file, and the values the parameters have in memory. -/
structure Store where
  file : File := none
  variant : Id → Variant := fun _ => .none

namespace Store

variable {δ : Type}

def set (s : Store) (id : Id) (value : Variant) : Store :=
  { s with variant := fun i => if i = id then value else s.variant i }

def fetch (lib : CJson δ) (s : Store) (id : Id) : Store × Result :=
  match (description id).memoryProviderType with
  | .sd =>
    let (file, res, value) := SdMemoryProvider.load lib (description id) s.file (s.variant id)
    (set { s with file } id value, res)
  | .nvs => (s, .memoryProviderNotFound)

def commit (lib : CJson δ) (s : Store) (id : Id) : Option (Store × Result) :=
  match (description id).memoryProviderType with
  | .sd => (SdMemoryProvider.save lib (description id) s.file (s.variant id)).map fun (file, res) => ({ s with file }, res)
  | .nvs => some (s, .memoryProviderNotFound)

/-- The string, where it has been fetched. A field that is no string parameter is not asked for. -/
def fetchStringByMf (lib : CJson δ) (s : Store) (module : Module) (field : Field) :
    Option (Store × Result × Option (List UInt8)) :=
  match pardescToId module field with
  | none => none
  | some id =>
    if (description id).parameterType = .str then
      let (s, result) := s.fetch lib id
      match result, s.variant id with
      | .ok, .str value => some (s, .ok, some value)
      | result, _ => some (s, result, none)
    else none

def commitStringByMf (lib : CJson δ) (s : Store) (module : Module) (field : Field) (aValue : List UInt8) :
    Option (Store × Result) :=
  match pardescToId module field with
  | none => none
  | some id => if (description id).parameterType = .str then (s.set id (.str aValue)).commit lib id else none

end Store

end Esp32Cam.Mod.Par
