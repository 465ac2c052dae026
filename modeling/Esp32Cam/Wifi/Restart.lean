/-
  Esp32Cam.Wifi.Restart — the station's settings, and what a restart makes of them.

  A field of the station that is written is kept in its credentials, and in the parameters on
  the card: an SSID, a password and whether to connect by the module API, which mirrors what
  has been accepted, the addresses by the station itself. A restart begins with empty credentials
  and fetches the parameters, one after the other up to the first that is not there.

  - `a_restart_restores_iff`: from a station that is configured, and through every run of writes and
    restarts, a restart always leads to the credentials the station has, up to their NULs, and to the
    connection it would make, exactly when what is accepted is valid up to its first NUL as well, every
    file that is written can be read again, and no connection fails of a station that has not been told
    to connect before.
  - `an_open_network_is_not_restored`: as long as no password is accepted, a restart connects to
    nothing, whatever the station has been connected to.
-/

import Esp32Cam.Lib.Word
import Esp32Cam.Mav.Wifi
import Esp32Cam.Mod.CardFaults
import Esp32Cam.Wifi.Credentials

namespace Esp32Cam.Wifi.Restart

open Esp32Cam.Lib Esp32Cam.Lib.PartialRun Esp32Cam.Mod.Par
open SdMemoryProvider (kFileSizeUpperThreshold encode decode entriesOf)

variable {δ : Type}

/-! ## Addresses -/

/-- The addresses of Asio and their text. -/
structure AddressText where
  makeAddressV4 : List UInt8 → Option UInt32
  u32AsIpString : UInt32 → List UInt8

def AddressText.ipStringToNetworkIp4 (text : AddressText) (ipString : List UInt8) : UInt32 :=
  (text.makeAddressV4 ipString).getD 0

structure AddressText.Lawful (text : AddressText) : Prop where
  parses : ∀ ip, text.makeAddressV4 (text.u32AsIpString ip) = some ip
  noNul : ∀ ip, 0 ∉ text.u32AsIpString ip
  empty : text.makeAddressV4 [] = none

structure Station where
  credentials : Credentials := {}
  store : Store := {}

/-! ## The parameters of the station -/

def fetchString (lib : CJson δ) (s : Store) (field : Field) : Store × Fetched (List UInt8) :=
  match pardescToId .wifiStaConnection field with
  | none => (s, ⟨.configDoesNotExist, []⟩)
  | some id =>
    let (s, result) := s.fetch lib id
    (s, ⟨result, match s.variant id with | .str value => value | _ => []⟩)

def fetchI32 (lib : CJson δ) (s : Store) (field : Field) : Store × Fetched Int32 :=
  match pardescToId .wifiStaConnection field with
  | none => (s, ⟨.configDoesNotExist, 0⟩)
  | some id =>
    let (s, result) := s.fetch lib id
    (s, ⟨result, match s.variant id with | .i32 value => value | _ => 0⟩)

/-- One that is left out has the result before it, and is not looked at. -/
def fetchBehind {α β : Type} (before : Store × Fetched β) (fetch : Store → Store × Fetched α) (value : α) :
    Store × Fetched α :=
  if before.2.result = .ok then fetch before.1 else (before.1, ⟨before.2.result, value⟩)

/-- The fetches of `Sta::Credentials::fetch`. -/
def fetchParameters (lib : CJson δ) (s : Store) : Store × Parameters :=
  let ssid := fetchString lib s .stringIdentifier
  let password := fetchBehind ssid (fetchString lib · .password) []
  let autoconnect := fetchBehind password (fetchI32 lib · .initialized) 0
  let ip := fetchString lib autoconnect.1 .ip
  let gateway := fetchString lib ip.1 .gateway
  let netmask := fetchString lib gateway.1 .netmask
  (netmask.1,
    { ssid := ssid.2, password := password.2, autoconnect := autoconnect.2, ip := ip.2, gateway := gateway.2,
      netmask := netmask.2 })

/-- `ModuleBase::fieldTryMirrorParameter`, for a field of the station. -/
def fieldTryMirrorParameter (lib : CJson δ) (s : Store) (field : Field) (value : Variant) : Option (Store × Result) :=
  match pardescToId .wifiStaConnection field with
  | some id => if (description id).mirrorField then (s.set id value).commit lib id else some (s, .configDoesNotExist)
  | none => some (s, .configDoesNotExist)

/-! ## The station -/

namespace Station

variable (lib : CJson δ) (text : AddressText)

/-- Valid credentials are not fetched: the card is left alone then, and nothing of the parameters is looked at. -/
def tryFetchConnect (s : Station) (connected : Bool) : Station × Called × Bool :=
  let (store, parameters) := fetchParameters lib s.store
  let (called, result) := Wifi.tryFetchConnect text.ipStringToNetworkIp4 s.credentials parameters connected
  ({ credentials := called.credentials, store := if s.credentials.isValid then s.store else store }, called, result)

/-- The answer is dropped. -/
def commitString (s : Station) (field : Field) (value : List UInt8) : Option Station :=
  (s.store.commitStringByMf lib .wifiStaConnection field value).map fun (store, _) => { s with store }

def mirror (s : Station) (field : Field) (value : Variant) : Option Station :=
  (fieldTryMirrorParameter lib s.store field value).map fun (store, _) => { s with store }

/-- `ModuleBase::moduleFieldWriteIter`, of a field of the station: what has been accepted is mirrored.
    An address is committed by the station, and has no mirror. -/
def write (s : Station) (w : StaWrite) (connected : Bool) : Option Station :=
  match w with
  | .password password =>
    let (credentials, success) := s.credentials.trySetPassword password
    if success then mirror lib { s with credentials } .password (.str password) else some s
  | .ssid ssid =>
    let (credentials, success) := s.credentials.trySetSsid ssid
    if success then
      (commitString lib { s with credentials := credentials.resetUseDhcp } .ip []).bind fun s =>
        mirror lib s .stringIdentifier (.str ssid)
    else some s
  | .initialized true =>
    let (s, _, success) := tryFetchConnect lib text { s with credentials.autoconnect := true } connected
    if success then mirror lib s .initialized (.i32 1) else some s
  | .initialized false => mirror lib { s with credentials.autoconnect := false } .initialized (.i32 0)
  | .ip ip => commitString lib { s with credentials.ip := ip } .ip (text.u32AsIpString ip)
  | .netmask netmask => commitString lib { s with credentials.netmask := netmask } .netmask (text.u32AsIpString netmask)
  | .gateway gateway => commitString lib { s with credentials.gateway := gateway } .gateway (text.u32AsIpString gateway)

/-- `wifiStart`: the station behind a restart. -/
def start (store : Store) (connected : Bool) : Station × Called × Bool :=
  tryFetchConnect lib text { store := { store with variant := fun _ => .none } } connected

end Station

section
variable {lib : CJson δ} {text : AddressText} {s s' : Station} {password ssid : List UInt8} {w : StaWrite}
  {connected : Bool}

theorem write_password (h : Credentials.passwordIsValid password = true) :
    s.write lib text (.password password) connected = Station.mirror lib { s with credentials.password := password } .password (.str password) := by
  simp only [Station.write, Credentials.trySetPassword, if_pos h, if_true]

theorem write_password_refused (h : ¬ Credentials.passwordIsValid password = true) :
    s.write lib text (.password password) connected = some s := by
  simp only [Station.write, Credentials.trySetPassword, if_neg h, Bool.false_eq_true, if_false]

theorem write_ssid (h : Credentials.ssidIsValid ssid = true) : s.write lib text (.ssid ssid) connected =
    (Station.commitString lib { s with credentials := { s.credentials with ssid, ip := 0 } } .ip []).bind
      fun s => Station.mirror lib s .stringIdentifier (.str ssid) := by
  simp only [Station.write, Credentials.trySetSsid, if_pos h, if_true, Credentials.resetUseDhcp]

theorem write_ssid_refused (h : ¬ Credentials.ssidIsValid ssid = true) :
    s.write lib text (.ssid ssid) connected = some s := by
  simp only [Station.write, Credentials.trySetSsid, if_neg h, Bool.false_eq_true, if_false]

theorem mirror_credentials {field : Field} {v : Variant} (h : Station.mirror lib s field v = some s') :
    s'.credentials = s.credentials := by
  obtain ⟨⟨store, result⟩, -, rfl⟩ := Option.map_eq_some_iff.mp h
  rfl

theorem commitString_credentials {field : Field} {value : List UInt8}
    (h : Station.commitString lib s field value = some s') :
    s'.credentials = s.credentials := by
  obtain ⟨⟨store, result⟩, -, rfl⟩ := Option.map_eq_some_iff.mp h
  rfl

end

/-! ## Runs -/

inductive Event where
  | write (w : StaWrite) (connected : Bool)
  | restart (connected : Bool)
  deriving DecidableEq

def step (lib : CJson δ) (text : AddressText) (s : Station) : Event → Option Station
  | .write w connected => s.write lib text w connected
  | .restart connected => some (Station.start lib text s.store connected).1

/-- The connection the station would make now. -/
def wouldConnect (c : Credentials) : Option Connection := if c.isValid && c.autoconnect then some c.connection else none

/-- What is stored of the strings. -/
def upToNul (c : Credentials) : Credentials := { c with ssid := (cStr c.ssid).1, password := (cStr c.password).1 }

/-- A restart leads to the credentials the station has, as valid as they are, and to the connection it would make. -/
structure Restores (lib : CJson δ) (text : AddressText) (s : Station) : Prop where
  credentials : ∀ connected, (Station.start lib text s.store connected).1.credentials = upToNul s.credentials
  valid : ∀ connected, (Station.start lib text s.store connected).1.credentials.isValid = s.credentials.isValid
  connection : ∀ connected, (Station.start lib text s.store connected).2.1.connection = wouldConnect s.credentials

/-! ## What a fetch finds -/

def foundIn (lib : CJson δ) (bytes : List UInt8) (id : Id) : Option Variant :=
  if bytes.length ≤ kFileSizeUpperThreshold then
    (Entries.lookup (nameOf id) (entriesOf lib (cStr bytes))).bind (decode (description id).parameterType)
  else none

def found (lib : CJson δ) (s : Store) (id : Id) : Option Variant := foundIn lib s.bytes id

def stringOf : Option Variant → List UInt8
  | some (.str value) => value
  | _ => []

def numberOf : Option Variant → Int32
  | some (.i32 value) => value
  | _ => 0

def addressOf (text : AddressText) (found : Option Variant) : UInt32 :=
  if found.isSome then text.ipStringToNetworkIp4 (stringOf found) else 0

/-- What a fetch comes to: the value of what has been found. -/
def Fetched.Is {α : Type} (fetched : Fetched α) (found : Option Variant) (value : Option Variant → α) : Prop :=
  (fetched.result = .ok ↔ found.isSome = true) ∧ (found.isSome = true → fetched.value = value found)

section
variable {lib : CJson δ} {text : AddressText} {s s' : Store} {id j : Id} {v : Variant}

theorem found_of_readable (h : s.Readable) (id : Id) : found lib s id = s.stored lib id := if_pos h

theorem found_of_unreadable (h : ¬ s.Readable) (id : Id) : found lib s id = none := if_neg h

theorem readable_of_found (h : found lib s id = some v) : s.Readable := by
  by_contra hlong
  rw [found_of_unreadable hlong] at h
  cases h

theorem foundIn_of_nil {bytes : List UInt8} (h : entriesOf lib (cStr bytes) = []) (id : Id) :
    foundIn lib bytes id = none := by
  unfold foundIn
  rw [h]
  split
  · rfl
  · rfl

theorem found_type (h : found lib s id = some v) :
    match (description id).parameterType with
    | .str => ∃ value, v = .str value
    | .i32 => ∃ value, v = .i32 value := by
  rw [found_of_readable (readable_of_found h), Store.stored, Option.bind_eq_some_iff] at h
  obtain ⟨item, -, hdecode⟩ := h
  generalize (description id).parameterType = t at hdecode
  cases t <;> cases item <;> cases hdecode
  · exact ⟨_, rfl⟩
  · exact ⟨_, rfl⟩

theorem fetch_found (s : Store) (id : Id) :
    ((s.fetch lib id).2 = .ok ↔ (found lib s id).isSome = true) ∧
      ((found lib s id).isSome = true → found lib s id = some ((s.fetch lib id).1.variant id)) := by
  rcases fetch_cases lib s id with ⟨hread, v, hstored, heq⟩ | ⟨hnone, file, res, heq, hres, -⟩
  · have hfound : found lib s id = some v := (found_of_readable hread id).trans hstored
    rw [hfound, heq]
    exact ⟨iff_of_true rfl rfl, fun _ => congrArg some (if_pos rfl).symm⟩
  · have hfound : found lib s id = none := by
      by_cases hread : s.Readable
      · exact (found_of_readable hread id).trans (hnone hread)
      · exact found_of_unreadable hread id
    rw [hfound, heq]
    exact ⟨iff_of_false hres (by decide), nofun⟩

/-- Nothing has changed of what is found, and no second entry has come into the file. -/
structure Quiet (lib : CJson δ) (s s' : Store) : Prop where
  found : ∀ j, found lib s' j = found lib s j
  tidy : Tidy lib s → Tidy lib s'

theorem Quiet.rfl : Quiet lib s s := ⟨fun _ => .refl _, id⟩

theorem Quiet.trans {s'' : Store} (h : Quiet lib s s') (h' : Quiet lib s' s'') : Quiet lib s s'' :=
  ⟨fun j => (h'.found j).trans (h.found j), fun htidy => h'.tidy (h.tidy htidy)⟩

theorem fetch_quiet (hlib : lib.Lawful) (s : Store) (id : Id) : Quiet lib s (s.fetch lib id).1 := by
  have hbytes : (s.fetch lib id).1.bytes = s.bytes ∨
      s.entries lib = [] ∧ (s.fetch lib id).1.bytes = ascii "\x7b\x7d" := by
    rcases fetch_cases lib s id with ⟨-, v, -, heq⟩ | ⟨-, file, res, heq, -, rfl | ⟨hnil, rfl⟩⟩
    · rw [heq]
      exact Or.inl rfl
    · rw [heq]
      exact Or.inl rfl
    · rw [heq]
      exact Or.inr ⟨hnil, rfl⟩
  rcases hbytes with hbytes | ⟨hnil, hbytes⟩
  · refine ⟨fun j => ?_, fun htidy j => ?_⟩
    · rw [found, hbytes, found]
    · rw [Store.entries, hbytes]
      exact htidy j
  · have hstub : entriesOf lib (cStr (ascii "\x7b\x7d")) = [] := by rw [entriesOf, hlib.stub]
    refine ⟨fun j => ?_, fun _ => CardFaults.tidy_of_entries_nil ?_⟩
    · rw [found, hbytes, foundIn_of_nil hstub, found, foundIn_of_nil hnil]
    · rw [Store.entries, hbytes, hstub]

theorem fetchString_spec (hlib : lib.Lawful) {field : Field} (hid : pardescToId .wifiStaConnection field = some id)
    (htype : (description id).parameterType = .str) (s : Store) :
    Fetched.Is (fetchString lib s field).2 (found lib s id) stringOf ∧
      Quiet lib s (fetchString lib s field).1 := by
  unfold fetchString
  rw [hid]
  refine ⟨⟨(fetch_found s id).1, fun hsome => ?_⟩, fetch_quiet hlib s id⟩
  have hfound := (fetch_found s id).2 hsome
  have hvalue := found_type hfound
  rw [htype] at hvalue
  obtain ⟨value, hvalue⟩ := hvalue
  rw [hfound, hvalue]
  dsimp only
  rw [hvalue]
  rfl

theorem fetchI32_spec (hlib : lib.Lawful) {field : Field} (hid : pardescToId .wifiStaConnection field = some id)
    (htype : (description id).parameterType = .i32) (s : Store) :
    Fetched.Is (fetchI32 lib s field).2 (found lib s id) numberOf ∧
      Quiet lib s (fetchI32 lib s field).1 := by
  unfold fetchI32
  rw [hid]
  refine ⟨⟨(fetch_found s id).1, fun hsome => ?_⟩, fetch_quiet hlib s id⟩
  have hfound := (fetch_found s id).2 hsome
  have hvalue := found_type hfound
  rw [htype] at hvalue
  obtain ⟨value, hvalue⟩ := hvalue
  rw [hfound, hvalue]
  dsimp only
  rw [hvalue]
  rfl

end

/-! ## What a restart comes to -/

/-- The parameters of the station, by their place in the table. -/
abbrev ssidId : Id := ⟨2, by decide⟩
abbrev passwordId : Id := ⟨3, by decide⟩
abbrev autoconnectId : Id := ⟨4, by decide⟩
abbrev netmaskId : Id := ⟨5, by decide⟩
abbrev ipId : Id := ⟨6, by decide⟩
abbrev gatewayId : Id := ⟨7, by decide⟩

theorem pardescToId_ssid : pardescToId .wifiStaConnection .stringIdentifier = some ssidId := by decide
theorem pardescToId_password : pardescToId .wifiStaConnection .password = some passwordId := by decide
theorem pardescToId_autoconnect : pardescToId .wifiStaConnection .initialized = some autoconnectId := by decide
theorem pardescToId_netmask : pardescToId .wifiStaConnection .netmask = some netmaskId := by decide
theorem pardescToId_ip : pardescToId .wifiStaConnection .ip = some ipId := by decide
theorem pardescToId_gateway : pardescToId .wifiStaConnection .gateway = some gatewayId := by decide

/-- The password is reached with an SSID, and whether to connect with both. -/
def reachedPassword (f : Id → Option Variant) : Option Variant := (f ssidId).bind fun _ => f passwordId

def reachedAutoconnect (f : Id → Option Variant) : Option Variant := (reachedPassword f).bind fun _ => f autoconnectId

structure Reads (p : Parameters) (f : Id → Option Variant) : Prop where
  ssid : Fetched.Is p.ssid (f ssidId) stringOf
  password : Fetched.Is p.password (reachedPassword f) stringOf
  autoconnect : Fetched.Is p.autoconnect (reachedAutoconnect f) numberOf
  ip : Fetched.Is p.ip (f ipId) stringOf
  gateway : Fetched.Is p.gateway (f gatewayId) stringOf
  netmask : Fetched.Is p.netmask (f netmaskId) stringOf

def restored (text : AddressText) (f : Id → Option Variant) : Credentials where
  ssid := stringOf (f ssidId)
  password := stringOf (reachedPassword f)
  autoconnect := numberOf (reachedAutoconnect f) ≠ 0
  ip := addressOf text (f ipId)
  gateway := addressOf text (f gatewayId)
  netmask := addressOf text (f netmaskId)

section
variable {lib : CJson δ} {text : AddressText} {s s₀ : Store} {f : Id → Option Variant} {p : Parameters}

/-- A fetch behind others that began with `s`. -/
def Fetches {α : Type} (lib : CJson δ) (s : Store) (fetch : Store × Fetched α) (value : Option Variant)
    (valueOf : Option Variant → α) : Prop := Fetched.Is fetch.2 value valueOf ∧ Quiet lib s fetch.1

theorem fetchString_fetches (hlib : lib.Lawful) (hs : Quiet lib s₀ s) {field : Field} {id : Id}
    (hid : pardescToId .wifiStaConnection field = some id) (htype : (description id).parameterType = .str) :
    Fetches lib s₀ (fetchString lib s field) (found lib s₀ id) stringOf := by
  obtain ⟨hread, hkept⟩ := fetchString_spec hlib hid htype s
  rw [hs.found] at hread
  exact ⟨hread, hs.trans hkept⟩

theorem fetchI32_fetches (hlib : lib.Lawful) (hs : Quiet lib s₀ s) {field : Field} {id : Id}
    (hid : pardescToId .wifiStaConnection field = some id) (htype : (description id).parameterType = .i32) :
    Fetches lib s₀ (fetchI32 lib s field) (found lib s₀ id) numberOf := by
  obtain ⟨hread, hkept⟩ := fetchI32_spec hlib hid htype s
  rw [hs.found] at hread
  exact ⟨hread, hs.trans hkept⟩

/-- A fetch behind another one, up to the first that is not there. -/
theorem Fetches.behind {α β : Type} {before : Store × Fetched β} {found₀ found₁ : Option Variant}
    {valueOf₀ : Option Variant → β} {valueOf : Option Variant → α} (hbefore : Fetches lib s₀ before found₀ valueOf₀)
    (fetch : Store → Store × Fetched α) (hfetch : Fetches lib s₀ (fetch before.1) found₁ valueOf) (value : α) :
    Fetches lib s₀ (fetchBehind before fetch value) (found₀.bind fun _ => found₁) valueOf := by
  unfold fetchBehind
  by_cases hok : before.2.result = .ok
  · obtain ⟨v, rfl⟩ := Option.isSome_iff_exists.mp (hbefore.1.1.mp hok)
    rw [if_pos hok]
    exact hfetch
  · have hnone : found₀ = none := by
      cases found₀ with
      | none => rfl
      | some v => exact absurd (hbefore.1.1.mpr rfl) hok
    rw [if_neg hok, hnone]
    exact ⟨⟨iff_of_false hok Bool.false_ne_true, nofun⟩, hbefore.2⟩

/-- The fetches find what the file says, as far as they go. -/
theorem fetchParameters_reads (hlib : lib.Lawful) (s : Store) :
    Reads (fetchParameters lib s).2 (found lib s) ∧ Quiet lib s (fetchParameters lib s).1 := by
  unfold fetchParameters
  dsimp only
  have hssid := fetchString_fetches hlib (Quiet.rfl (s := s)) pardescToId_ssid rfl
  generalize fetchString lib s .stringIdentifier = ssid at hssid ⊢
  have hpassword := hssid.behind (fetchString lib · .password)
    (fetchString_fetches hlib hssid.2 pardescToId_password rfl) []
  generalize fetchBehind ssid (fetchString lib · .password) [] = password at hpassword ⊢
  have hautoconnect := hpassword.behind (fetchI32 lib · .initialized)
    (fetchI32_fetches hlib hpassword.2 pardescToId_autoconnect rfl) 0
  generalize fetchBehind password (fetchI32 lib · .initialized) 0 = autoconnect at hautoconnect ⊢
  have hip := fetchString_fetches hlib hautoconnect.2 pardescToId_ip rfl
  generalize fetchString lib autoconnect.1 .ip = ip at hip ⊢
  have hgateway := fetchString_fetches hlib hip.2 pardescToId_gateway rfl
  generalize fetchString lib ip.1 .gateway = gateway at hgateway ⊢
  have hnetmask := fetchString_fetches hlib hgateway.2 pardescToId_netmask rfl
  exact ⟨⟨hssid.1, hpassword.1, hautoconnect.1, hip.1, hgateway.1, hnetmask.1⟩, hnetmask.2⟩

theorem Fetched.Is.address {fetched : Fetched (List UInt8)} {found : Option Variant}
    (h : Fetched.Is fetched found stringOf) :
    (if fetched.result = .ok then text.ipStringToNetworkIp4 fetched.value else 0) = addressOf text found := by
  unfold addressOf
  by_cases hsome : found.isSome = true
  · rw [if_pos (h.1.mpr hsome), if_pos hsome, h.2 hsome]
  · rw [if_neg fun hok => hsome (h.1.mp hok), if_neg hsome]

/-- Empty credentials become what has been found; the fetch succeeds if it has come to its end. -/
theorem fetch_of_reads (text : AddressText) (h : Reads p f) :
    (({} : Credentials).fetch text.ipStringToNetworkIp4 p).1 = restored text f ∧
      ((({} : Credentials).fetch text.ipStringToNetworkIp4 p).2 = .ok ↔ (reachedAutoconnect f).isSome = true) := by
  have hcredentials : (({} : Credentials).fetchCredentials p).1 =
        { ssid := stringOf (f ssidId), password := stringOf (reachedPassword f),
          autoconnect := numberOf (reachedAutoconnect f) ≠ 0 } ∧
      ((({} : Credentials).fetchCredentials p).2 = .ok ↔ (reachedAutoconnect f).isSome = true) := by
    have hssid := h.ssid
    have hpassword := h.password
    have hautoconnect := h.autoconnect
    unfold Credentials.fetchCredentials
    unfold reachedAutoconnect at hautoconnect ⊢
    unfold reachedPassword at hautoconnect hpassword ⊢
    cases hs : f ssidId with
    | none =>
      rw [hs] at hssid
      have hfailed : p.ssid.result ≠ .ok := fun hok => Bool.false_ne_true (hssid.1.mp hok)
      rw [if_pos hfailed]
      exact ⟨rfl, iff_of_false hfailed Bool.false_ne_true⟩
    | some ssid =>
      rw [hs] at hssid hpassword hautoconnect
      rw [if_neg (not_not_intro (hssid.1.mpr rfl)), hssid.2 rfl]
      dsimp only [Option.bind_some] at hpassword hautoconnect ⊢
      cases hp : f passwordId with
      | none =>
        rw [hp] at hpassword
        have hfailed : p.password.result ≠ .ok := fun hok => Bool.false_ne_true (hpassword.1.mp hok)
        rw [if_pos hfailed]
        exact ⟨rfl, iff_of_false hfailed Bool.false_ne_true⟩
      | some password =>
        rw [hp] at hpassword hautoconnect
        rw [if_neg (not_not_intro (hpassword.1.mpr rfl)), hpassword.2 rfl]
        dsimp only [Option.bind_some] at hautoconnect ⊢
        cases ha : f autoconnectId with
        | none =>
          rw [ha] at hautoconnect
          have hfailed : p.autoconnect.result ≠ .ok := fun hok => Bool.false_ne_true (hautoconnect.1.mp hok)
          rw [if_pos hfailed]
          exact ⟨rfl, iff_of_false hfailed Bool.false_ne_true⟩
        | some autoconnect =>
          rw [ha] at hautoconnect
          rw [if_neg (not_not_intro (hautoconnect.1.mpr rfl)), hautoconnect.2 rfl]
          exact ⟨rfl, iff_of_true rfl rfl⟩
  refine ⟨?_, hcredentials.2⟩
  show (({} : Credentials).fetchCredentials p).1.fetchAddresses text.ipStringToNetworkIp4 p = _
  rw [fetchAddresses_eq, hcredentials.1]
  dsimp only
  rw [h.ip.address, h.gateway.address, h.netmask.address]
  rfl

theorem tryFetchConnect_empty (toNetworkIp4 : List UInt8 → UInt32) (p : Parameters) (connected : Bool) :
    (Wifi.tryFetchConnect toNetworkIp4 {} p connected).1.credentials = (({} : Credentials).fetch toNetworkIp4 p).1 ∧
      (Wifi.tryFetchConnect toNetworkIp4 {} p connected).1.connection =
        if (({} : Credentials).fetch toNetworkIp4 p).2 = .ok then wouldConnect (({} : Credentials).fetch toNetworkIp4 p).1
        else none := by
  have hinvalid : ({} : Credentials).isValid = false := rfl
  unfold Wifi.tryFetchConnect
  rw [hinvalid]
  rcases ({} : Credentials).fetch toNetworkIp4 p with ⟨c, result⟩
  simp only [Bool.not_false, if_true]
  unfold wouldConnect
  by_cases hok : result = .ok
  · have htest : ((result == .ok && c.isValid) && c.autoconnect) = (c.isValid && c.autoconnect) := by rw [hok]; rfl
    rw [if_pos hok, htest]
    split
    · exact ⟨rfl, rfl⟩
    · exact ⟨rfl, rfl⟩
  · have hne : (result == .ok) = false := beq_eq_false_iff_ne.mpr hok
    rw [if_neg hok, hne]
    exact ⟨rfl, rfl⟩

/-- What a restart leads to, and what it connects to. -/
theorem start_eq (hlib : lib.Lawful) (text : AddressText) (s : Store) (connected : Bool) :
    (Station.start lib text s connected).1.credentials = restored text (found lib s) ∧
      (Station.start lib text s connected).2.1.connection =
        if (reachedAutoconnect (found lib s)).isSome then wouldConnect (restored text (found lib s)) else none := by
  obtain ⟨hcredentials, hok⟩ := fetch_of_reads text (fetchParameters_reads hlib { s with variant := fun _ => .none }).1
  have hfound : found lib { s with variant := fun _ => .none } = found lib s := rfl
  rw [hfound] at hcredentials hok
  obtain ⟨hstarted, hconnection⟩ :=
    tryFetchConnect_empty text.ipStringToNetworkIp4 (fetchParameters lib { s with variant := fun _ => .none }).2 connected
  refine ⟨hstarted.trans hcredentials, hconnection.trans ?_⟩
  rw [hcredentials]
  exact if_congr hok rfl rfl

end

/-! ## What a write comes to -/

/-- The value is stored, up to its first NUL, unless the file has become too long to be read. -/
structure Wrote (lib : CJson δ) (s s' : Store) (id : Id) (v : Variant) : Prop where
  readable : s'.Readable → s.Readable
  tidy : Tidy lib s'
  found : s'.Readable → found lib s' = Function.update (found lib s) id (some v.upToNul)

section
variable {lib : CJson δ} {s s' : Store} {t t' : Station} {id : Id} {v : Variant} {field : Field}

theorem commit_wrote (hlib : lib.Lawful) (htidy : Tidy lib s) {res : Result}
    (h : (s.set id v).commit lib id = some (s', res)) : Wrote lib s s' id v := by
  rcases commit_cases h with ⟨hlong, -, hbytes⟩ | ⟨hread, -, item, hitem, hfile⟩
  · have hlong' : ¬ s'.Readable := by
      unfold Store.Readable
      rw [hbytes]
      exact hlong
    refine ⟨fun hread => absurd hread hlong', fun j => ?_, fun hread => absurd hread hlong'⟩
    rw [Store.entries, hbytes]
    exact htidy j
  · refine ⟨fun _ => hread, tidy_written hlib.inverts htidy hfile, fun hread' => funext fun j => ?_⟩
    rw [found_of_readable hread']
    by_cases hj : j = id
    · subst hj
      rw [Function.update_self, stored_self hlib.inverts hfile, leftOver_of_tidy htidy]
      exact decode_encode_upToNul hitem
    · rw [Function.update_of_ne hj, stored_other hlib.inverts hfile hj, found_of_readable hread]

theorem mirror_commit (h : Station.mirror lib t field v = some t') (hid : pardescToId .wifiStaConnection field = some id)
    (hmirror : (description id).mirrorField = true) : ∃ res, (t.store.set id v).commit lib id = some (t'.store, res) := by
  unfold Station.mirror fieldTryMirrorParameter at h
  rw [hid] at h
  dsimp only at h
  rw [if_pos hmirror] at h
  obtain ⟨⟨store, res⟩, hcommit, rfl⟩ := Option.map_eq_some_iff.mp h
  exact ⟨res, hcommit⟩

theorem commitString_commit {value : List UInt8} (h : Station.commitString lib t field value = some t')
    (hid : pardescToId .wifiStaConnection field = some id) (htype : (description id).parameterType = .str) :
    ∃ res, (t.store.set id (.str value)).commit lib id = some (t'.store, res) := by
  unfold Station.commitString Store.commitStringByMf at h
  rw [hid] at h
  dsimp only at h
  rw [if_pos htype] at h
  obtain ⟨⟨store, res⟩, hcommit, rfl⟩ := Option.map_eq_some_iff.mp h
  exact ⟨res, hcommit⟩

theorem mirror_wrote (hlib : lib.Lawful) (h : Station.mirror lib t field v = some t') (htidy : Tidy lib t.store)
    (hid : pardescToId .wifiStaConnection field = some id) (hmirror : (description id).mirrorField = true) :
    t'.credentials = t.credentials ∧ Wrote lib t.store t'.store id v := by
  obtain ⟨res, hcommit⟩ := mirror_commit h hid hmirror
  exact ⟨mirror_credentials h, commit_wrote hlib htidy hcommit⟩

theorem commitString_wrote (hlib : lib.Lawful) {value : List UInt8} (h : Station.commitString lib t field value = some t')
    (htidy : Tidy lib t.store) (hid : pardescToId .wifiStaConnection field = some id)
    (htype : (description id).parameterType = .str) :
    t'.credentials = t.credentials ∧ Wrote lib t.store t'.store id (.str value) := by
  obtain ⟨res, hcommit⟩ := commitString_commit h hid htype
  exact ⟨commitString_credentials h, commit_wrote hlib htidy hcommit⟩

end

/-! ## A configured station -/

/-- The parameters are all there, and are what the credentials are. -/
structure Agrees (text : AddressText) (f : Id → Option Variant) (c : Credentials) : Prop where
  ssid : f ssidId = some (.str c.ssid)
  password : f passwordId = some (.str c.password)
  autoconnect : ∃ a, f autoconnectId = some (.i32 a) ∧ decide (a ≠ 0) = c.autoconnect
  ip : addressOf text (f ipId) = c.ip
  gateway : addressOf text (f gatewayId) = c.gateway
  netmask : addressOf text (f netmaskId) = c.netmask

/-- The SSID, the password and whether to connect are on the card, and are what the station has. -/
structure Configured (lib : CJson δ) (text : AddressText) (s : Station) : Prop where
  tidy : Tidy lib s.store
  agrees : Agrees text (found lib s.store) (upToNul s.credentials)
  valid : s.credentials.isValid = true
  storedValid : (upToNul s.credentials).isValid = true

/-- What is accepted is valid up to its first NUL as well, and a connection that fails is of a station that has been
    told to connect before. -/
def Plain (c : Credentials) (connected : Bool) : StaWrite → Prop
  | .password password =>
    Credentials.passwordIsValid password = true → Credentials.passwordIsValid (cStr password).1 = true
  | .ssid ssid => Credentials.ssidIsValid ssid = true → Credentials.ssidIsValid (cStr ssid).1 = true
  | .initialized true => connected = false → c.autoconnect = true
  | _ => True

/-- A write leaves a file that can be read again, and what is written is as valid behind a restart. -/
def Restorable (lib : CJson δ) (text : AddressText) (s : Station) : Event → Prop
  | .write w connected =>
    (∀ s', s.write lib text w connected = some s' → s'.store.Readable) ∧ Plain s.credentials connected w
  | .restart _ => True

section
variable {lib : CJson δ} {text : AddressText} {s s' : Station} {f : Id → Option Variant} {c : Credentials} {e : Event}
variable {password ssid : List UInt8} {connected : Bool} {w : StaWrite}

theorem restored_of_agrees (h : Agrees text f c) :
    restored text f = c ∧ (reachedAutoconnect f).isSome = true := by
  obtain ⟨a, hautoconnect, ha⟩ := h.autoconnect
  have hpassword : reachedPassword f = some (.str c.password) := by
    rw [reachedPassword, h.ssid]
    exact h.password
  have hreached : reachedAutoconnect f = some (.i32 a) := by
    rw [reachedAutoconnect, hpassword]
    exact hautoconnect
  have hnumber : decide (numberOf (some (.i32 a)) ≠ 0) = c.autoconnect := ha
  rw [restored, h.ssid, hpassword, hreached, h.ip, h.gateway, h.netmask, hnumber]
  exact ⟨rfl, rfl⟩

theorem connection_upToNul (c : Credentials) : (upToNul c).connection = c.connection := by
  simp [upToNul, Credentials.connection, Credentials.useDhcp]

@[simp] theorem upToNul_upToNul (c : Credentials) : upToNul (upToNul c) = upToNul c := by simp [upToNul]

/-- Nothing but a readable file restores credentials that are valid. -/
theorem restores_iff (hlib : lib.Lawful) (hvalid : s.credentials.isValid = true)
    (h : s.store.Readable → Agrees text (found lib s.store) c) :
    Restores lib text s ↔ s.store.Readable ∧ c = upToNul s.credentials ∧ c.isValid = true := by
  constructor
  · intro hrestores
    have hstarted := (start_eq hlib text s.store true).1
    have hrestored : (restored text (found lib s.store)).isValid = true := by
      rw [← hstarted, hrestores.valid true, hvalid]
    have hread : s.store.Readable := by
      by_contra hlong
      have hnone : found lib s.store = fun _ => none := funext (found_of_unreadable hlong)
      rw [hnone] at hrestored
      cases hrestored
    have hc := (restored_of_agrees (h hread)).1
    rw [hc] at hstarted hrestored
    exact ⟨hread, hstarted.symm.trans (hrestores.credentials true), hrestored⟩
  · rintro ⟨hread, rfl, hcut⟩
    obtain ⟨hrestored, hreached⟩ := restored_of_agrees (h hread)
    have hconnection : wouldConnect (upToNul s.credentials) = wouldConnect s.credentials := by
      rw [wouldConnect, hcut, connection_upToNul, wouldConnect, hvalid]
      rfl
    refine ⟨fun connected => ?_, fun connected => ?_, fun connected => ?_⟩
    · rw [(start_eq hlib text s.store connected).1, hrestored]
    · rw [(start_eq hlib text s.store connected).1, hrestored, hcut, hvalid]
    · rw [(start_eq hlib text s.store connected).2, if_pos hreached, hrestored, hconnection]

/-- What a write makes of a configured station: `c` is what is on the card then. -/
structure Writes (lib : CJson δ) (text : AddressText) (s : Station) (w : StaWrite) (connected : Bool) (s' : Station)
    (c : Credentials) : Prop where
  tidy : Tidy lib s'.store
  valid : s'.credentials.isValid = true
  agrees : s'.store.Readable → Agrees text (found lib s'.store) c
  plain : c = upToNul s'.credentials ∧ c.isValid = true ↔ Plain s.credentials connected w

/-- One value has been stored: `c'` is what the station has, and `c` what is on the card. -/
theorem Writes.of_wrote {c' : Credentials} {id : Id} {v : Variant} (hcredentials : s'.credentials = c')
    (hwrote : Wrote lib s.store s'.store id v) (hvalid : c'.isValid = true)
    (hagrees : Agrees text (Function.update (found lib s.store) id (some v.upToNul)) c)
    (hplain : c = upToNul c' ∧ c.isValid = true ↔ Plain s.credentials connected w) :
    Writes lib text s w connected s' c := by
  subst hcredentials
  refine ⟨hwrote.tidy, hvalid, fun hread => ?_, hplain⟩
  rw [hwrote.found hread]
  exact hagrees

/-- What is refused changes nothing. -/
theorem Writes.of_refused (h : Configured lib text s) (hplain : Plain s.credentials connected w) :
    Writes lib text s w connected s (upToNul s.credentials) :=
  ⟨h.tidy, h.valid, fun _ => h.agrees, iff_of_true ⟨rfl, h.storedValid⟩ hplain⟩

theorem password_writes (hlib : lib.Lawful) (h : Configured lib text s)
    (hs : s.write lib text (.password password) connected = some s') :
    ∃ c, Writes lib text s (.password password) connected s' c := by
  by_cases hvalid : Credentials.passwordIsValid password = true
  · rw [write_password hvalid] at hs
    obtain ⟨hcredentials, hwrote⟩ := mirror_wrote hlib hs h.tidy pardescToId_password rfl
    have hssid := (Bool.and_eq_true_iff.mp h.storedValid).1
    refine ⟨{ upToNul s.credentials with password := (cStr password).1 }, .of_wrote hcredentials hwrote ?_ ?_
      ⟨fun hc _ => ?_, fun hplain => ?_⟩⟩
    · exact Bool.and_eq_true_iff.mpr ⟨(Bool.and_eq_true_iff.mp h.valid).1, hvalid⟩
    · exact ⟨h.agrees.ssid, rfl, h.agrees.autoconnect, h.agrees.ip, h.agrees.gateway, h.agrees.netmask⟩
    · exact (Bool.and_eq_true_iff.mp hc.2).2
    · exact ⟨rfl, Bool.and_eq_true_iff.mpr ⟨hssid, hplain hvalid⟩⟩
  · rw [write_password_refused hvalid] at hs
    obtain rfl := Option.some_inj.mp hs
    exact ⟨_, .of_refused h fun hok => absurd hok hvalid⟩

/-- The empty address is stored first. -/
theorem ssid_writes (hlib : lib.Lawful) (htext : text.Lawful) (h : Configured lib text s)
    (hs : s.write lib text (.ssid ssid) connected = some s') :
    ∃ c, Writes lib text s (.ssid ssid) connected s' c := by
  by_cases hvalid : Credentials.ssidIsValid ssid = true
  · rw [write_ssid hvalid] at hs
    obtain ⟨t, hip, hs⟩ := Option.bind_eq_some_iff.mp hs
    obtain ⟨hcredentials, hwroteIp⟩ := commitString_wrote hlib hip h.tidy pardescToId_ip rfl
    obtain ⟨hcredentials', hwrote⟩ := mirror_wrote hlib hs hwroteIp.tidy pardescToId_ssid rfl
    have hempty : text.ipStringToNetworkIp4 [] = 0 := by rw [AddressText.ipStringToNetworkIp4, htext.empty]; rfl
    have hpassword := (Bool.and_eq_true_iff.mp h.storedValid).2
    refine ⟨{ upToNul s.credentials with ssid := (cStr ssid).1, ip := 0 }, hwrote.tidy, ?_, fun hread => ?_, ?_⟩
    · rw [hcredentials', hcredentials]
      exact Bool.and_eq_true_iff.mpr ⟨hvalid, (Bool.and_eq_true_iff.mp h.valid).2⟩
    · rw [hwrote.found hread, hwroteIp.found (hwrote.readable hread)]
      exact ⟨rfl, h.agrees.password, h.agrees.autoconnect, hempty, h.agrees.gateway, h.agrees.netmask⟩
    · rw [hcredentials', hcredentials]
      refine ⟨fun hc _ => ?_, fun hplain => ?_⟩
      · exact (Bool.and_eq_true_iff.mp hc.2).1
      · exact ⟨rfl, Bool.and_eq_true_iff.mpr ⟨hplain hvalid, hpassword⟩⟩
  · rw [write_ssid_refused hvalid] at hs
    obtain rfl := Option.some_inj.mp hs
    exact ⟨_, .of_refused h fun hok => absurd hok hvalid⟩

/-- Valid credentials are connected with as they are. -/
theorem write_initialized (hvalid : s.credentials.isValid = true) : s.write lib text (.initialized true) connected =
    if connected then Station.mirror lib { s with credentials.autoconnect := true } .initialized (.i32 1)
    else some { s with credentials.autoconnect := true } := by
  have hvalid' : ({ s.credentials with autoconnect := true } : Credentials).isValid = true := hvalid
  simp [Station.write, Station.tryFetchConnect, Wifi.tryFetchConnect, hvalid']

theorem initialized_writes (hlib : lib.Lawful) (h : Configured lib text s) {enable : Bool}
    (hs : s.write lib text (.initialized enable) connected = some s') :
    ∃ c, Writes lib text s (.initialized enable) connected s' c := by
  have hstored : ∀ (b : Bool) (a : Int32), decide (a ≠ 0) = b →
      Agrees text (Function.update (found lib s.store) autoconnectId (some (.i32 a)))
        (upToNul { s.credentials with autoconnect := b }) :=
    fun b a ha => ⟨h.agrees.ssid, h.agrees.password, ⟨a, rfl, ha⟩, h.agrees.ip, h.agrees.gateway, h.agrees.netmask⟩
  cases enable with
  | false =>
    obtain ⟨hcredentials, hwrote⟩ := mirror_wrote hlib hs h.tidy pardescToId_autoconnect rfl
    exact ⟨_, .of_wrote hcredentials hwrote h.valid (hstored false 0 rfl) (iff_of_true ⟨rfl, h.storedValid⟩ trivial)⟩
  | true =>
    rw [write_initialized h.valid] at hs
    cases connected with
    | true =>
      obtain ⟨hcredentials, hwrote⟩ := mirror_wrote hlib hs h.tidy pardescToId_autoconnect rfl
      exact ⟨_, .of_wrote hcredentials hwrote h.valid (hstored true 1 rfl) (iff_of_true ⟨rfl, h.storedValid⟩ nofun)⟩
    | false =>
      -- the station is to connect from now on, and the card does not say so
      obtain rfl := Option.some_inj.mp hs
      refine ⟨upToNul s.credentials, h.tidy, h.valid, fun _ => h.agrees, fun hc _ => ?_, fun hplain => ?_⟩
      · exact congrArg Credentials.autoconnect hc.1
      · have hautoconnect : s.credentials.autoconnect = true := hplain rfl
        refine ⟨?_, h.storedValid⟩
        rw [← hautoconnect]

/-- An address is stored as its text. -/
theorem address_stored (htext : text.Lawful) (ip : UInt32) :
    addressOf text (some (Variant.str (text.u32AsIpString ip)).upToNul) = ip := by
  show text.ipStringToNetworkIp4 (cStr (text.u32AsIpString ip)).1 = ip
  rw [cStr_of_notMem (htext.noNul ip), AddressText.ipStringToNetworkIp4, htext.parses]
  rfl

/-- An address is committed as its text, and nothing is mirrored. -/
theorem address_writes (hlib : lib.Lawful) (htext : text.Lawful) (h : Configured lib text s) {c' : Credentials}
    {field : Field} {id : Id} {ip : UInt32}
    (hs : Station.commitString lib { s with credentials := c' } field (text.u32AsIpString ip) = some s')
    (hid : pardescToId .wifiStaConnection field = some id) (htype : (description id).parameterType = .str)
    (hvalid : c'.isValid = true) (hstored : (upToNul c').isValid = true)
    (hagrees : addressOf text (some (Variant.str (text.u32AsIpString ip)).upToNul) = ip →
      Agrees text (Function.update (found lib s.store) id (some (Variant.str (text.u32AsIpString ip)).upToNul))
        (upToNul c'))
    (hplain : Plain s.credentials connected w) : ∃ c, Writes lib text s w connected s' c := by
  obtain ⟨hcredentials, hwrote⟩ := commitString_wrote hlib hs h.tidy hid htype
  exact ⟨_, .of_wrote hcredentials hwrote hvalid (hagrees (address_stored htext ip)) (iff_of_true ⟨rfl, hstored⟩ hplain)⟩

theorem write_writes (hlib : lib.Lawful) (htext : text.Lawful) (h : Configured lib text s)
    (hs : s.write lib text w connected = some s') : ∃ c, Writes lib text s w connected s' c := by
  cases w with
  | password password => exact password_writes hlib h hs
  | ssid ssid => exact ssid_writes hlib htext h hs
  | initialized enable => exact initialized_writes hlib h hs
  | ip ip =>
    refine address_writes hlib htext h hs pardescToId_ip rfl h.valid h.storedValid (fun hip => ?_) trivial
    exact ⟨h.agrees.ssid, h.agrees.password, h.agrees.autoconnect, hip, h.agrees.gateway, h.agrees.netmask⟩
  | netmask netmask =>
    refine address_writes hlib htext h hs pardescToId_netmask rfl h.valid h.storedValid (fun hnetmask => ?_) trivial
    exact ⟨h.agrees.ssid, h.agrees.password, h.agrees.autoconnect, h.agrees.ip, h.agrees.gateway, hnetmask⟩
  | gateway gateway =>
    refine address_writes hlib htext h hs pardescToId_gateway rfl h.valid h.storedValid (fun hgateway => ?_) trivial
    exact ⟨h.agrees.ssid, h.agrees.password, h.agrees.autoconnect, h.agrees.ip, hgateway, h.agrees.netmask⟩

theorem write_restores_iff (hlib : lib.Lawful) (htext : text.Lawful) (h : Configured lib text s)
    (hs : s.write lib text w connected = some s') : Restores lib text s' ↔ Restorable lib text s (.write w connected) := by
  obtain ⟨c, hwrites⟩ := write_writes hlib htext h hs
  rw [restores_iff hlib hwrites.valid hwrites.agrees, hwrites.plain]
  refine and_congr_left fun _ => ⟨fun hread s'' hs'' => ?_, fun hread => hread s' hs⟩
  obtain rfl := Option.some_inj.mp (hs''.symm.trans hs)
  exact hread

theorem write_configured (hlib : lib.Lawful) (htext : text.Lawful) (h : Configured lib text s)
    (hs : s.write lib text w connected = some s') (hrestorable : Restorable lib text s (.write w connected)) :
    Configured lib text s' := by
  obtain ⟨c, hwrites⟩ := write_writes hlib htext h hs
  obtain ⟨rfl, hstored⟩ := hwrites.plain.mpr hrestorable.2
  exact ⟨hwrites.tidy, hwrites.agrees (hrestorable.1 s' hs), hwrites.valid, hstored⟩

theorem Configured.restores (hlib : lib.Lawful) (h : Configured lib text s) : Restores lib text s :=
  (restores_iff hlib h.valid fun _ => h.agrees).mpr ⟨readable_of_found h.agrees.ssid, rfl, h.storedValid⟩

/-- What has been stored is found again with a restart, and nothing else is written. -/
theorem restart_configured (hlib : lib.Lawful) (h : Configured lib text s) (connected : Bool) :
    Configured lib text (Station.start lib text s.store connected).1 := by
  have hcredentials := (start_eq hlib text s.store connected).1.trans (restored_of_agrees h.agrees).1
  have hquiet := (fetchParameters_reads hlib { s.store with variant := fun _ => .none }).2
  have hfound : found lib (Station.start lib text s.store connected).1.store = found lib s.store := funext hquiet.found
  refine ⟨hquiet.tidy h.tidy, ?_, ?_, ?_⟩
  · rw [hfound, hcredentials, upToNul_upToNul]
    exact h.agrees
  · rw [hcredentials]
    exact h.storedValid
  · rw [hcredentials, upToNul_upToNul]
    exact h.storedValid

theorem step_restores_iff (hlib : lib.Lawful) (htext : text.Lawful) (hs : step lib text s e = some s')
    (h : Configured lib text s) : Restores lib text s' ↔ Restorable lib text s e := by
  cases e with
  | write w connected => exact write_restores_iff hlib htext h hs
  | restart connected =>
    obtain rfl := Option.some_inj.mp hs
    exact iff_of_true ((restart_configured hlib h connected).restores hlib) trivial

theorem step_configured (hlib : lib.Lawful) (htext : text.Lawful) (hs : step lib text s e = some s')
    (h : Configured lib text s) (hrestorable : Restorable lib text s e) : Configured lib text s' := by
  cases e with
  | write w connected => exact write_configured hlib htext h hs hrestorable
  | restart connected =>
    obtain rfl := Option.some_inj.mp hs
    exact restart_configured hlib h connected

end

/-- **Settings survive a restart.** Through every run of a configured station: a restart leads to the credentials
    it has, and connects as it would, after each step, exactly when each write leaves a file that can be read, and what
    it has accepted is valid up to its first NUL, and is stored with the connection that is asked for. -/
theorem a_restart_restores_iff {lib : CJson δ} {text : AddressText} (hlib : lib.Lawful) (htext : text.Lawful) (s : Station)
    (h : Configured lib text s) (events : List Event) :
    Along (step lib text) (fun _ _ s' => Restores lib text s') s events ↔
      Along (step lib text) (fun s e _ => Restorable lib text s e) s events := by
  exact along_iff_along (I := Configured lib text) (fun _ _ _ hs hi hg => step_configured hlib htext hs hi hg)
    (fun _ _ _ hs hi => step_restores_iff hlib htext hs hi) h

/-! ## A station, and its card -/

def digits (b : UInt8) : List UInt8 := (Nat.toDigits 10 b.toNat).map Char.toUInt8

/-- A number as it is printed, and no other text of it. -/
def byteOf (text : List UInt8) : Option UInt8 :=
  let value := UInt8.ofNat (text.foldl (fun n c => 10 * n + (c.toNat - 48)) 0)
  if digits value = text then some value else none

/-- Four numbers with dots between them, the most significant first. -/
def dottedQuad : AddressText where
  makeAddressV4 text := ((text.splitOn 46).mapM byteOf).bind fun bytes =>
    if bytes.length = 4 then some (UInt32.ofNat (ofBytes true bytes.reverse)) else none
  u32AsIpString ip := List.intercalate [46] ((le32 ip.toNat).reverse.map digits)

theorem digits_spec (b : UInt8) : byteOf (digits b) = some b ∧ 46 ∉ digits b ∧ 0 ∉ digits b := by
  have hall : ∀ n < 256, byteOf (digits (UInt8.ofNat n)) = some (UInt8.ofNat n) ∧ 46 ∉ digits (UInt8.ofNat n) ∧
      0 ∉ digits (UInt8.ofNat n) := by decide +kernel
  have hb := hall b.toNat b.toNat_lt
  rwa [UInt8.ofNat_toNat] at hb

theorem dottedQuad_lawful : dottedQuad.Lawful where
  parses ip := by
    have hsplit : (List.intercalate [46] ((le32 ip.toNat).reverse.map digits)).splitOn 46 =
        (le32 ip.toNat).reverse.map digits := by
      refine List.splitOn_intercalate 46 (fun l hl => ?_) (by simp [le32])
      obtain ⟨b, -, rfl⟩ := List.mem_map.mp hl
      exact (digits_spec b).2.1
    have hbytes : ((le32 ip.toNat).reverse.map digits).mapM byteOf = some (le32 ip.toNat).reverse := by
      simp [le32, (digits_spec _).1]
    dsimp only [dottedQuad]
    rw [hsplit, hbytes, Option.bind_some, List.reverse_reverse, ofBytes_le32 ip.toNat_lt, UInt32.ofNat_toNat]
    rfl
  noNul ip := by
    dsimp only [dottedQuad]
    simp [le32, List.intercalate, (digits_spec _).2.2]
  empty := by decide

def network : Root Empty := .object [(nameOf ssidId, .string (cStr (ascii "net"))), (nameOf autoconnectId, .number 1),
  (nameOf passwordId, .string (cStr (ascii "12345678")))]

def networkText : CString := cStr (ascii
  "\x7b\n\t\"WifiStaSsid\":\t\"net\",\n\t\"WifiStaAutoconn\":\t1,\n\t\"WifiStaPassword\":\t\"12345678\"\n\x7d")

def cjson : CJson Empty := CardFaults.closing network networkText

theorem networkText_closed : CardFaults.Closed networkText := ⟨by decide, by decide, by decide, by decide⟩

theorem cjson_lawful : cjson.Lawful := CardFaults.closing_lawful networkText_closed

def station : Station where
  credentials := { ssid := ascii "net", password := ascii "12345678", autoconnect := true }
  store := { file := some networkText.1 }

theorem entriesOf_networkText : entriesOf cjson (cStr networkText.1) =
    [(nameOf ssidId, .string (cStr (ascii "net"))), (nameOf autoconnectId, .number 1),
      (nameOf passwordId, .string (cStr (ascii "12345678")))] := by
  rw [cStr_val, entriesOf, cjson, CardFaults.parse_text]
  rfl

theorem found_station (id : Id) : found cjson station.store id =
    (Entries.lookup (nameOf id) [(nameOf ssidId, .string (cStr (ascii "net"))), (nameOf autoconnectId, .number 1),
      (nameOf passwordId, (.string (cStr (ascii "12345678")) : Item Empty))]).bind
        (decode (description id).parameterType) := by
  rw [found, foundIn, if_pos (by decide)]
  show (Entries.lookup (nameOf id) (entriesOf cjson (cStr networkText.1))).bind _ = _
  rw [entriesOf_networkText]

theorem station_configured : Configured cjson dottedQuad station where
  tidy id := by
    rw [Store.entries]
    show Entries.Single _ _ (entriesOf cjson (cStr networkText.1))
    rw [entriesOf_networkText]
    unfold Entries.Single
    revert id
    decide
  agrees := by
    refine ⟨?_, ?_, ⟨1, ?_, rfl⟩, ?_, ?_, ?_⟩
    · rw [found_station]
      decide
    · rw [found_station]
      decide
    · rw [found_station]
      decide
    · rw [found_station]
      decide
    · rw [found_station]
      decide
    · rw [found_station]
      decide
  valid := by decide
  storedValid := by decide

/-- A field of 64 bytes with the password in it. -/
def padded (password : List UInt8) : List UInt8 := Mav.WifiConfigAp.field Mav.WifiConfigAp.kPasswordSize password

theorem written_network :
    written cjson station.store passwordId (.string (cStr (padded (ascii "12345678")))) = networkText.1 := by
  have hentries : station.store.entries cjson = _ := entriesOf_networkText
  rw [written, hentries]
  exact congrArg Subtype.val CardFaults.print_known

/-- The password that is on the card is written as it comes from the network, and restored; another one is not. -/
theorem a_short_password_is_not_restored :
    Along (step cjson dottedQuad) (fun _ _ s' => Restores cjson dottedQuad s') station
        [.write (.password (padded (ascii "12345678"))) true, .restart true] ∧
      ¬ Along (step cjson dottedQuad) (fun _ _ s' => Restores cjson dottedQuad s') station
        [.write (.password (padded (ascii "123"))) true] := by
  constructor
  · refine (a_restart_restores_iff cjson_lawful dottedQuad_lawful station station_configured _).mpr fun s' _ =>
      ⟨⟨fun s'' hs => ?_, fun _ => by decide⟩, fun _ _ => ⟨trivial, trivial⟩⟩
    rw [write_password (by decide)] at hs
    obtain ⟨res, hcommit⟩ := mirror_commit hs pardescToId_password rfl
    rcases commit_cases hcommit with ⟨hlong, -⟩ | ⟨-, -, item, hitem, hfile⟩
    · exact absurd (show networkText.1.length ≤ kFileSizeUpperThreshold by decide) hlong
    · obtain rfl := Option.some_inj.mp hitem
      rw [Store.Readable, Store.bytes, hfile]
      show (written cjson station.store _ _).length ≤ _
      rw [written_network]
      decide
  · intro hrestores
    have hstep : ∃ s', step cjson dottedQuad station (.write (.password (padded (ascii "123"))) true) = some s' := by
      exact ⟨_, rfl⟩
    obtain ⟨s', hstep⟩ := hstep
    have hrestorable := (a_restart_restores_iff cjson_lawful dottedQuad_lawful station station_configured _).mp hrestores
    have hplain := (hrestorable s' hstep).1.2
    exact absurd (hplain (by decide)) (by decide)

/-! ## A network without a password -/

section
variable {lib : CJson δ} {text : AddressText} {s s' : Station} {e : Event} {field : Field} {id : Id} {v : Variant}

/-- A commit of another parameter brings none to the card that was not there. -/
theorem commit_spares (hlib : lib.Lawful) {store store' : Store} {res : Result} {j : Id} (hj : j ≠ id)
    (h : (store.set id v).commit lib id = some (store', res)) (hnone : found lib store j = none) :
    found lib store' j = none := by
  rcases commit_cases h with ⟨-, -, hbytes⟩ | ⟨hread, -, item, -, hfile⟩
  · rw [found, hbytes]
    exact hnone
  · by_cases hread' : store'.Readable
    · rw [found_of_readable hread', stored_other hlib.inverts hfile hj, ← found_of_readable hread]
      exact hnone
    · exact found_of_unreadable hread' j

theorem mirror_spares (hlib : lib.Lawful) (hid : pardescToId .wifiStaConnection field = some id) (hne : passwordId ≠ id)
    (hmirror : (description id).mirrorField = true) (h : Station.mirror lib s field v = some s')
    (hnone : found lib s.store passwordId = none) : found lib s'.store passwordId = none := by
  obtain ⟨res, hcommit⟩ := mirror_commit h hid hmirror
  exact commit_spares hlib hne hcommit hnone

theorem commitString_spares (hlib : lib.Lawful) {value : List UInt8} (hid : pardescToId .wifiStaConnection field = some id)
    (hne : passwordId ≠ id) (htype : (description id).parameterType = .str)
    (h : Station.commitString lib s field value = some s') (hnone : found lib s.store passwordId = none) :
    found lib s'.store passwordId = none := by
  obtain ⟨res, hcommit⟩ := commitString_commit h hid htype
  exact commit_spares hlib hne hcommit hnone

theorem tryFetchConnect_spares (hlib : lib.Lawful) (text : AddressText) (connected : Bool)
    (hnone : found lib s.store passwordId = none) :
    found lib (Station.tryFetchConnect lib text s connected).1.store passwordId = none := by
  have hfetched : found lib (fetchParameters lib s.store).1 passwordId = none :=
    ((fetchParameters_reads hlib s.store).2.found passwordId).trans hnone
  unfold Station.tryFetchConnect
  dsimp only
  split
  · exact hnone
  · exact hfetched

theorem step_spares (hlib : lib.Lawful) (hs : step lib text s e = some s')
    (hrefused : ∀ password connected, e = .write (.password password) connected →
      ¬ Credentials.passwordIsValid password = true)
    (hnone : found lib s.store passwordId = none) :
    found lib s'.store passwordId = none := by
  cases e with
  | restart connected =>
    obtain rfl := Option.some_inj.mp hs
    exact tryFetchConnect_spares hlib text connected hnone
  | write w connected =>
    cases w with
    | password password =>
      have hwrite : s.write lib text (.password password) connected = some s' := hs
      rw [write_password_refused (hrefused password connected rfl)] at hwrite
      obtain rfl := Option.some_inj.mp hwrite
      exact hnone
    | ssid ssid =>
      have hwrite : s.write lib text (.ssid ssid) connected = some s' := hs
      by_cases hvalid : Credentials.ssidIsValid ssid = true
      · rw [write_ssid hvalid] at hwrite
        obtain ⟨t, hip, hmirror⟩ := Option.bind_eq_some_iff.mp hwrite
        exact mirror_spares hlib pardescToId_ssid (by decide) rfl hmirror
          (commitString_spares hlib pardescToId_ip (by decide) rfl hip hnone)
      · rw [write_ssid_refused hvalid] at hwrite
        obtain rfl := Option.some_inj.mp hwrite
        exact hnone
    | initialized enable =>
      cases enable with
      | false => exact mirror_spares hlib pardescToId_autoconnect (by decide) rfl hs hnone
      | true =>
        have hfetched := tryFetchConnect_spares (s := { s with credentials.autoconnect := true }) hlib text connected hnone
        simp only [step, Station.write] at hs
        split at hs
        · exact mirror_spares hlib pardescToId_autoconnect (by decide) rfl hs hfetched
        · obtain rfl := Option.some_inj.mp hs
          exact hfetched
    | ip ip => exact commitString_spares hlib pardescToId_ip (by decide) rfl hs hnone
    | netmask netmask => exact commitString_spares hlib pardescToId_netmask (by decide) rfl hs hnone
    | gateway gateway => exact commitString_spares hlib pardescToId_gateway (by decide) rfl hs hnone

/-- Without a password on the card the fetch does not come to its end. -/
theorem start_without_password (hlib : lib.Lawful) (text : AddressText) (hnone : found lib s.store passwordId = none)
    (connected : Bool) : (Station.start lib text s.store connected).2.1.connection = none := by
  have hreached : reachedAutoconnect (found lib s.store) = none := by
    rw [reachedAutoconnect, reachedPassword, hnone]
    cases found lib s.store ssidId <;> rfl
  rw [(start_eq hlib text s.store connected).2, hreached]
  rfl

end

/-- **An open network is not restored.** From a card without a password, through every run in which none is accepted: a
    restart connects to nothing, whatever the station has connected to. -/
theorem an_open_network_is_not_restored {lib : CJson δ} {text : AddressText} (hlib : lib.Lawful) (s : Station)
    (h : found lib s.store passwordId = none) (events : List Event)
    (hrefused : ∀ password connected, .write (.password password) connected ∈ events →
      ¬ Credentials.passwordIsValid password = true) :
    Always (step lib text) (fun s => ∀ connected, (Station.start lib text s.store connected).2.1.connection = none) s
      events := by
  induction events generalizing s with
  | nil => exact start_without_password hlib text h
  | cons e es ih =>
    refine ⟨start_without_password hlib text h, fun s' hs => ih s' ?_ fun password connected hmem => ?_⟩
    · refine step_spares hlib hs (fun password connected heq => hrefused password connected ?_) h
      rw [heq]
      exact List.mem_cons_self
    · exact hrefused password connected (List.mem_cons_of_mem e hmem)

/-- An open network is joined from a new card. -/
theorem an_open_network_is_joined_once :
    Always (step cjson dottedQuad)
      (fun s => ∀ connected, (Station.start cjson dottedQuad s.store connected).2.1.connection = none) {}
      [.write (.ssid (ascii "net")) true, .write (.initialized true) true, .restart true] :=
  an_open_network_is_not_restored cjson_lawful {}
    (foundIn_of_nil (CardFaults.entries_of_empty_file networkText_closed) passwordId) _ fun _ _ hmem => absurd hmem (by simp)

end Esp32Cam.Wifi.Restart
