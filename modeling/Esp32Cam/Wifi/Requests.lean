/-
  Esp32Cam.Wifi.Requests — what comes of the strings of a WIFI_CONFIG_AP.

  The fields are 32 and 64 bytes, padded with NULs. The handlers make strings of the whole
  fields, and the modules check the length of those: it is 32 or 64 whatever is in them, so
  the checks accept everything. A string that is persisted, or a connection is made with, is
  cut at its first NUL; the credentials, and a parameter as it is held, keep the padding.
  Station mode connects without any check, for the length it looks at is never zero.

  The handlers are those of the microservice, and their answers are computed from the
  modules and the parameters here (`World.answers`); whether a parameter can be committed,
  and a connection made, is the environment's. `requests_iff`: the promise is kept exactly
  where the request's own strings are valid, and nothing but the strings is in the fields
  they are taken from; with strings read up to their first NUL, where they are valid.
-/

import Esp32Cam.Mav.Wifi
import Esp32Cam.Mod.ParameterMap
import Esp32Cam.Wifi.Credentials

namespace Esp32Cam.Wifi.Requests

open Esp32Cam.Mod.Par Esp32Cam.Mav

variable {F : Type}

/-- A message whose fields have the size they have. -/
abbrev Request :=
  { w : WifiConfigAp // w.ssid.length = WifiConfigAp.kSsidSize ∧ w.password.length = WifiConfigAp.kPasswordSize }

/-- An SSID or a password that has been stored, or used for a connection. -/
inductive Kept where
  | ssid (string : List UInt8)
  | password (string : List UInt8)
  deriving DecidableEq, Repr

/-- What is behind an operation: its answer, and what it has kept. -/
structure Outcome (σ α : Type) where
  world : σ
  answer : α
  kept : List Kept := []

/-- What the parameters, the driver and MD5 come to while a request is processed. -/
structure Answers where
  commit : Id → Result
  fetched : Parameters
  connected : Bool
  toNetworkIp4 : List UInt8 → UInt32
  md5 : List UInt8 → Vector UInt8 16

/-- The station's credentials, and the parameters: as they are held, and as they are saved. -/
structure World where
  credentials : Credentials := {}
  variant : Id → Variant := fun _ => .none
  saved : Id → Option Variant := fun _ => none

/-! ## The parameters -/

/-- What is read back of a value that has been saved, in a file that ends its strings with NULs. -/
def asSaved : Variant → Variant
  | .str value => .str (cStr value).1
  | value => value

def keptAs (id : Id) (value : Variant) : List Kept :=
  match (description id).field, value with
  | .stringIdentifier, .str ssid => [.ssid ssid]
  | .password, .str password => [.password password]
  | _, _ => []

namespace World

def set (s : World) (id : Id) (value : Variant) : World :=
  { s with variant := fun i => if i = id then value else s.variant i }

/-- `set` and `commit`: the value is held whether it can be saved or not. -/
def commit (a : Answers) (s : World) (id : Id) (value : Variant) : Outcome World Result :=
  let s := s.set id value
  if a.commit id = .ok then
    { world := { s with saved := fun i => if i = id then some (asSaved value) else s.saved i }
      answer := .ok
      kept := keptAs id value ++ keptAs id (asSaved value) }
  else { world := s, answer := a.commit id, kept := keptAs id value }

def fieldTryMirrorParameter (a : Answers) (s : World) (module : Module) (field : Field) (value : Variant) :
    Outcome World Result :=
  match pardescToId module field with
  | some id => if (description id).mirrorField then s.commit a id value else { world := s, answer := .configDoesNotExist }
  | none => { world := s, answer := .configDoesNotExist }

/-! ## The modules -/

/-- The credentials a write has been accepted into, and those a connection is made with. -/
def calledKept (w : StaWrite) (called : Called) : List Kept :=
  (match w, called.refusal with
    | .password _, none => [.password called.credentials.password]
    | .ssid _, none => [.ssid called.credentials.ssid]
    | _, _ => []) ++
  match called.connection with
  | some c => [.ssid c.ssid.1, .password c.password.1]
  | none => []

/-- `Sta::setFieldValue`. With an SSID, the empty address is committed. -/
def staSetFieldValue (a : Answers) (s : World) (w : StaWrite) : Outcome World Bool :=
  let called := setFieldValue a.toNetworkIp4 s.credentials a.fetched a.connected w
  let s := { s with credentials := called.credentials }
  let s := match w, called.refusal, pardescToId .wifiStaConnection .ip with
    | .ssid _, none, some id => (s.commit a id (.str [])).world
    | _, _, _ => s
  { world := s, answer := called.refusal.isNone, kept := calledKept w called }

/-- `Ap::setFieldValue`: nothing but the check. The lengths are the station's, but for an empty password. -/
def apSsidIsValid (ssid : List UInt8) : Bool := kSsidMinLength ≤ ssid.length && ssid.length ≤ kSsidMaxLength
def apPasswordIsValid (password : List UInt8) : Bool :=
  kPasswordMinLength ≤ password.length && password.length ≤ kPasswordMaxLength

/-- The fields of the tracker are not this microservice's. -/
def setFieldValue (a : Answers) (s : World) : FieldWrite → Outcome World Bool
  | .staPassword password => s.staSetFieldValue a (.password password)
  | .staStringIdentifier ssid => s.staSetFieldValue a (.ssid ssid)
  | .staInitialized initialized => s.staSetFieldValue a (.initialized initialized)
  | .apStringIdentifier ssid => { world := s, answer := apSsidIsValid ssid }
  | .apPassword password => { world := s, answer := apPasswordIsValid password }
  | .trackingRoi _ => { world := s, answer := true }
  | .trackingInitialized _ => { world := s, answer := true }

/-- What a write is mirrored as. -/
def mirroredAs : FieldWrite → Option (Module × Field × Variant)
  | .staPassword password => some (.wifiStaConnection, .password, .str password)
  | .staStringIdentifier ssid => some (.wifiStaConnection, .stringIdentifier, .str ssid)
  | .staInitialized initialized => some (.wifiStaConnection, .initialized, .i32 (if initialized then 1 else 0))
  | .apStringIdentifier ssid => some (.wifiAp, .stringIdentifier, .str ssid)
  | .apPassword password => some (.wifiAp, .password, .str password)
  | .trackingRoi _ => none
  | .trackingInitialized _ => none

/-- There is one module of each kind. -/
def moduleFieldWrite (a : Answers) (s : World) (w : FieldWrite) : Outcome World Bool :=
  let written := s.setFieldValue a w
  match written.answer, mirroredAs w with
  | true, some (module, field, value) =>
    let mirrored := written.world.fieldTryMirrorParameter a module field value
    { world := mirrored.world
      answer := mirrored.answer == .ok || mirrored.answer == .configDoesNotExist
      kept := written.kept ++ mirrored.kept }
  | _, _ => written

/-! ## A request -/

def carry (a : Answers) (s : World) : Carried → Outcome World Bool
  | .fieldWrite w => s.moduleFieldWrite a w
  | .wifiStaConnect ssid password => { world := s, answer := a.connected, kept := [.ssid ssid, .password password] }
  | _ => { world := s, answer := true }

def carryAll (a : Answers) (s : World) : List Carried → World × List Kept
  | [] => (s, [])
  | c :: commands =>
    let carried := s.carry a c
    let (s, kept) := carryAll a carried.world commands
    (s, carried.kept ++ kept)

/-- The answers to the commands of a request, each in the world behind those before it. -/
def answers (a : Answers) (s : World) (w : WifiConfigAp) : Mav.Wifi.Env :=
  let password := s.moduleFieldWrite a (.staPassword w.password)
  let ssid := password.world.moduleFieldWrite a (.staStringIdentifier w.ssid)
  let initialized :=
    if w.hasSsid && w.hasPassword then ssid.world.moduleFieldWrite a (.staInitialized true)
    else s.moduleFieldWrite a (.staInitialized false)
  { staPassword := [password.answer]
    staStringIdentifier := [ssid.answer]
    staInitialized := [initialized.answer]
    apStringIdentifier := [(s.moduleFieldWrite a (.apStringIdentifier w.ssid)).answer]
    apPassword := [(s.moduleFieldWrite a (.apPassword w.password)).answer]
    readSta := ([], [])
    readAp := ([], [])
    connected := a.connected
    md5 := a.md5 }

/-- The turn of the microservice, in whatever message the request has come. -/
def turn (a : Answers) (s : World) (m : Message F) (r : Request) : Turn F :=
  (Mav.Wifi.processConfigAp (s.answers a r.1) { message := m } r.1).1

def process (a : Answers) (s : World) (m : Message F) (r : Request) : World × List Kept :=
  s.carryAll a (s.turn a m r).commands

end World

/-! ## What is promised -/

def content (field : List UInt8) : List UInt8 := (cStr field).1

namespace Request

/-- In the undefined mode, a request is for the fields that are used. -/
def asksSsid (r : Request) : Bool :=
  if r.1.mode = Mav.Wifi.kModeUndefined then r.1.hasSsid
  else r.1.mode == Mav.Wifi.kModeAp || r.1.mode == Mav.Wifi.kModeStation

def asksPassword (r : Request) : Bool :=
  if r.1.mode = Mav.Wifi.kModeUndefined then r.1.hasPassword else r.1.mode == Mav.Wifi.kModeStation

def Valid (r : Request) : Prop :=
  (r.asksSsid = true → Credentials.ssidIsValid (content r.1.ssid) = true) ∧
    (r.asksPassword = true → Credentials.passwordIsValid (content r.1.password) = true)

instance (r : Request) : Decidable r.Valid := inferInstanceAs (Decidable (_ ∧ _))

def Disconnects (r : Request) : Prop := r.1.mode = Mav.Wifi.kModeStation ∧ content r.1.ssid = []

/-- A field a string is made of has no padding; station mode takes the contents. -/
def Unpadded (r : Request) : Prop :=
  r.1.mode ≠ Mav.Wifi.kModeStation →
    (r.asksSsid = true → 0 ∉ r.1.ssid) ∧ (r.asksPassword = true → 0 ∉ r.1.password)

/-- The error sequences, and the response that is not given to a success. -/
def Failed (r : Request) (responses : List (Message F)) : Prop :=
  ∃ m ∈ responses, ∃ w, m.body = .wifiConfigAp w ∧
    if r.1.mode = Mav.Wifi.kModeUndefined then w.ssid.take 2 ∈ ([[0, 1], [0, 2], [0, 3], [0, 4]] : List (List UInt8))
    else w.response ≠ Mav.Wifi.kResponseAccepted

end Request

def Kept.Proper (r : Request) : Kept → Prop
  | .ssid string => string = content r.1.ssid ∧ Credentials.ssidIsValid string = true
  | .password string => string = content r.1.password ∧ Credentials.passwordIsValid string = true

/-- A string as it is read by those who stop at the first NUL. -/
def Kept.asCString : Kept → Kept
  | .ssid string => .ssid (content string)
  | .password string => .password (content string)

/-- `kept` is what has been kept, as it is looked at. -/
structure AsPromised (a : Answers) (s : World) (m : Message F) (r : Request) (kept : List Kept) : Prop where
  proper : ∀ k ∈ kept, k.Proper r
  refused : ¬ r.Valid → ¬ r.Disconnects → r.Failed (s.turn a m r).responses ∧ (s.process a m r).1 = s
  disconnects : r.Disconnects → Carried.wifiDisconnect ∈ (s.turn a m r).commands

/-! ## What a write keeps -/

/-- A string, and nothing but it and its content. -/
structure Only (kept : List Kept) (whole cut : Kept) : Prop where
  mem : whole ∈ kept
  only : ∀ k ∈ kept, k = whole ∨ k = cut

section
variable {a : Answers} {s : World} {r : Request} {m : Message F}

@[simp] theorem commit_credentials (a : Answers) (s : World) (id : Id) (v : Variant) :
    (s.commit a id v).world.credentials = s.credentials := by
  unfold World.commit
  dsimp only
  split <;> rfl

theorem commit_kept (a : Answers) (s : World) (id : Id) (v : Variant) : (s.commit a id v).kept =
    keptAs id v ++ if a.commit id = .ok then keptAs id (asSaved v) else [] := by
  unfold World.commit
  dsimp only
  split <;> simp

theorem commit_only {id : Id} {v : Variant} {whole cut : Kept} (hwhole : keptAs id v = [whole])
    (hcut : keptAs id (asSaved v) = [cut]) (kept : List Kept) (hkept : ∀ k ∈ kept, k = whole) :
    Only (kept ++ (s.commit a id v).kept) whole cut := by
  rw [commit_kept, hwhole, hcut]
  refine ⟨by simp, ?_⟩
  intro k hk
  rw [List.mem_append] at hk
  rcases hk with hk | hk
  · exact Or.inl (hkept k hk)
  · split at hk
    · simpa using hk
    · simpa using Or.inl hk

section
variable {string : List UInt8}

theorem staPassword_kept (h : Credentials.passwordIsValid string = true) :
    (s.moduleFieldWrite a (.staPassword string)).world.credentials = { s.credentials with password := string } ∧
      Only (s.moduleFieldWrite a (.staPassword string)).kept (.password string) (.password (content string)) := by
  have hmirror : ∀ s : World, s.fieldTryMirrorParameter a .wifiStaConnection .password (.str string) =
      s.commit a 3 (.str string) := fun _ => rfl
  simp only [World.moduleFieldWrite, World.setFieldValue, World.staSetFieldValue, Wifi.setFieldValue,
    Credentials.trySetPassword, h, World.mirroredAs, World.calledKept, Option.isNone_none, if_true, hmirror]
  exact ⟨by simp, commit_only rfl rfl _ (by simp)⟩

theorem staSsid_kept (h : Credentials.ssidIsValid string = true) :
    (s.moduleFieldWrite a (.staStringIdentifier string)).world.credentials = { s.credentials with ssid := string, ip := 0 } ∧
      Only (s.moduleFieldWrite a (.staStringIdentifier string)).kept (.ssid string) (.ssid (content string)) := by
  have hmirror : ∀ s : World, s.fieldTryMirrorParameter a .wifiStaConnection .stringIdentifier (.str string) =
      s.commit a 2 (.str string) := fun _ => rfl
  have hip : pardescToId .wifiStaConnection .ip = some 6 := by decide
  simp only [World.moduleFieldWrite, World.setFieldValue, World.staSetFieldValue, Wifi.setFieldValue,
    Credentials.trySetSsid, h, World.mirroredAs, World.calledKept, Option.isNone_none, if_true, hmirror, hip]
  refine ⟨?_, commit_only rfl rfl _ (by simp [Credentials.resetUseDhcp])⟩
  simp only [commit_credentials]
  rfl

theorem apSsid_kept (h : World.apSsidIsValid string = true) :
    Only (s.moduleFieldWrite a (.apStringIdentifier string)).kept (.ssid string) (.ssid (content string)) := by
  have hmirror : ∀ s : World, s.fieldTryMirrorParameter a .wifiAp .stringIdentifier (.str string) =
      s.commit a 0 (.str string) := fun _ => rfl
  simp only [World.moduleFieldWrite, World.setFieldValue, h, World.mirroredAs, hmirror]
  exact commit_only rfl rfl _ (by simp)

theorem apPassword_kept (h : World.apPasswordIsValid string = true) :
    Only (s.moduleFieldWrite a (.apPassword string)).kept (.password string) (.password (content string)) := by
  have hmirror : ∀ s : World, s.fieldTryMirrorParameter a .wifiAp .password (.str string) =
      s.commit a 1 (.str string) := fun _ => rfl
  simp only [World.moduleFieldWrite, World.setFieldValue, h, World.mirroredAs, hmirror]
  exact commit_only rfl rfl _ (by simp)

end

/-- A connection is made with the contents of valid credentials. -/
theorem staConnect_kept (h : s.credentials.isValid = true) (k : Kept)
    (hk : k ∈ (s.moduleFieldWrite a (.staInitialized true)).kept) :
    k = .ssid (content s.credentials.ssid) ∨ k = .password (content s.credentials.password) := by
  have htry : tryFetchConnect a.toNetworkIp4 { s.credentials with autoconnect := true } a.fetched a.connected =
      ({ credentials := { s.credentials with autoconnect := true }
         connection := some { s.credentials with autoconnect := true }.connection }, a.connected) := by
    have hvalid : { s.credentials with autoconnect := true }.isValid = true := h
    simp [tryFetchConnect, hvalid]
  have hmirror : ∀ s : World, (s.fieldTryMirrorParameter a .wifiStaConnection .initialized (.i32 1)).kept = [] := by
    intro s
    refine Eq.trans (commit_kept a s 4 (.i32 1)) ?_
    split <;> rfl
  simp only [World.moduleFieldWrite, World.setFieldValue, World.staSetFieldValue, Wifi.setFieldValue, htry, World.mirroredAs,
    World.calledKept, if_true] at hk
  cases hconnected : a.connected with
  | true =>
    simp only [hconnected, if_true, Option.isNone_none, hmirror] at hk
    simpa [Credentials.connection, content] using hk
  | false =>
    simp only [hconnected, Bool.false_eq_true, if_false, Option.isNone_some] at hk
    simpa [Credentials.connection, content] using hk

theorem staDisconnect_kept : (s.moduleFieldWrite a (.staInitialized false)).kept = [] := by
  have hmirror : ∀ s : World, (s.fieldTryMirrorParameter a .wifiStaConnection .initialized (.i32 0)).kept = [] := by
    intro s
    refine Eq.trans (commit_kept a s 4 (.i32 0)) ?_
    split <;> rfl
  simp only [World.moduleFieldWrite, World.setFieldValue, World.staSetFieldValue, Wifi.setFieldValue, World.mirroredAs,
    World.calledKept, Option.isNone_none, Bool.false_eq_true, if_false, hmirror, List.append_nil]

/-! ## Commands and answers -/

/-- What a handler takes the answer to a command for. -/
def answerTo (env : Mav.Wifi.Env) : Carried → Bool
  | .fieldWrite (.staPassword _) => env.staPassword.all id
  | .fieldWrite (.staStringIdentifier _) => env.staStringIdentifier.all id
  | .fieldWrite (.staInitialized _) => env.staInitialized.all id
  | .fieldWrite (.apStringIdentifier _) => env.apStringIdentifier.getLast?.getD false
  | .fieldWrite (.apPassword _) => env.apPassword.getLast?.getD false
  | .wifiStaConnect .. => env.connected
  | _ => true

/-- The commands are carried out one behind the other, each with its answer. -/
def Answered (a : Answers) (env : Mav.Wifi.Env) : World → List Carried → Prop
  | _, [] => True
  | s, c :: commands => (s.carry a c).answer = answerTo env c ∧ Answered a env (s.carry a c).world commands

/-- The answers a turn has been computed with are those its commands get. -/
theorem answered (a : Answers) (s : World) (m : Message F) (r : Request) :
    Answered a (s.answers a r.1) s (s.turn a m r).commands := by
  unfold World.turn Mav.Wifi.processConfigAp
  by_cases hundefined : r.1.mode = Mav.Wifi.kModeUndefined
  · rw [if_pos hundefined]
    cases hssid : r.1.hasSsid with
    | true =>
      cases hpassword : r.1.hasPassword with
      | true =>
        unfold Mav.Wifi.processConfigApConnect
        dsimp only
        split <;> simp [Answered, answerTo, World.answers, World.carry, Turn.respond, Turn.carryOut, hssid, hpassword]
      | false => exact ⟨rfl, trivial⟩
    | false =>
      cases r.1.hasPassword with
      | true => exact ⟨rfl, trivial⟩
      | false =>
        simp [Answered, answerTo, World.answers, World.carry, Mav.Wifi.processConfigApDisconnect, Turn.respond,
          Turn.carryOut, hssid]
  · rw [if_neg hundefined]
    split
    · exact ⟨rfl, trivial⟩
    · split
      · unfold Mav.Wifi.processConfigApSetSta
        split <;> exact ⟨rfl, trivial⟩
      · trivial

/-! ## What a request keeps -/

/-- The string a field is taken for. -/
def Request.taken (r : Request) (field : List UInt8) : List UInt8 :=
  if r.1.mode = Mav.Wifi.kModeStation then content field else field

/-- What is asked for is kept as it is taken, and nothing else is but the contents. -/
structure Keeps (r : Request) (kept : List Kept) : Prop where
  ssid : r.asksSsid = true → .ssid (r.taken r.1.ssid) ∈ kept
  password : r.asksPassword = true → .password (r.taken r.1.password) ∈ kept
  only : ∀ k ∈ kept,
    (r.asksSsid = true ∧ (k = .ssid (r.taken r.1.ssid) ∨ k = .ssid (content r.1.ssid))) ∨
      (r.asksPassword = true ∧ (k = .password (r.taken r.1.password) ∨ k = .password (content r.1.password)))

/-- The lengths of the fields are valid, whatever is in them. -/
theorem fields_valid (r : Request) :
    Credentials.ssidIsValid r.1.ssid = true ∧ Credentials.passwordIsValid r.1.password = true ∧
      World.apSsidIsValid r.1.ssid = true ∧ World.apPasswordIsValid r.1.password = true := by
  obtain ⟨hssid, hpassword⟩ := r.2
  simp only [Credentials.ssidIsValid, Credentials.passwordIsValid, World.apSsidIsValid, World.apPasswordIsValid, hssid,
    hpassword]
  decide

theorem connect_commands (env : Mav.Wifi.Env) (m : Message F) (w : WifiConfigAp) : ∃ tail,
    (Mav.Wifi.processConfigApConnect env { message := m } w).1.commands =
      .fieldWrite (.staPassword w.password) :: .fieldWrite (.staStringIdentifier w.ssid) :: tail ∧
    (tail = [] ∨ tail = [.fieldWrite (.staInitialized true)]) := by
  unfold Mav.Wifi.processConfigApConnect
  dsimp only
  split
  · exact ⟨[.fieldWrite (.staInitialized true)], rfl, Or.inr rfl⟩
  · exact ⟨[], rfl, Or.inl rfl⟩

/-- The password and the SSID are in the credentials when the connection is asked for. -/
theorem keeps_connect (hmode : r.1.mode = Mav.Wifi.kModeUndefined) (hssid : r.1.hasSsid = true)
    (hpassword : r.1.hasPassword = true) : Keeps r (s.process a m r).2 := by
  obtain ⟨hvalidSsid, hvalidPassword, -, -⟩ := fields_valid r
  have htaken : ∀ field, r.taken field = field := fun field => if_neg (by rw [hmode]; decide)
  have hasksSsid : r.asksSsid = true := (if_pos hmode).trans hssid
  have hasksPassword : r.asksPassword = true := (if_pos hmode).trans hpassword
  have hturn : (s.turn a m r).commands =
      (Mav.Wifi.processConfigApConnect (s.answers a r.1) { message := m } r.1).1.commands := by
    rw [World.turn, Mav.Wifi.processConfigAp, if_pos hmode, hssid, hpassword]
  obtain ⟨tail, hcommands, htail⟩ := connect_commands (s.answers a r.1) m r.1
  obtain ⟨hcredentials, honly⟩ := @staPassword_kept a s _ hvalidPassword
  obtain ⟨hcredentials', honly'⟩ := @staSsid_kept a (s.moduleFieldWrite a (.staPassword r.1.password)).world _ hvalidSsid
  rw [hcredentials] at hcredentials'
  have hlast : ∀ k ∈ (((s.moduleFieldWrite a (.staPassword r.1.password)).world.moduleFieldWrite a
      (.staStringIdentifier r.1.ssid)).world.carryAll a tail).2,
      k = .ssid (content r.1.ssid) ∨ k = .password (content r.1.password) := by
    intro k hk
    rcases htail with rfl | rfl
    · cases hk
    · have hvalid : { s.credentials with password := r.1.password, ssid := r.1.ssid, ip := 0 }.isValid = true := by
        rw [Credentials.isValid, hvalidSsid, hvalidPassword]
        rfl
      rw [← hcredentials'] at hvalid
      simp only [World.carryAll, World.carry, List.append_nil] at hk
      have hconnected := staConnect_kept hvalid k hk
      rw [hcredentials'] at hconnected
      exact hconnected
  rw [World.process, hturn, hcommands]
  simp only [World.carryAll, World.carry]
  refine ⟨fun _ => ?_, fun _ => ?_, fun k hk => ?_⟩
  · rw [htaken]
    exact List.mem_append_right _ (List.mem_append_left _ honly'.mem)
  · rw [htaken]
    exact List.mem_append_left _ honly.mem
  · rw [htaken, htaken]
    rcases List.mem_append.mp hk with hk | hk
    · exact Or.inr ⟨hasksPassword, honly.only k hk⟩
    · rcases List.mem_append.mp hk with hk | hk
      · exact Or.inl ⟨hasksSsid, honly'.only k hk⟩
      · rcases hlast k hk with rfl | rfl
        · exact Or.inl ⟨hasksSsid, Or.inr rfl⟩
        · exact Or.inr ⟨hasksPassword, Or.inr rfl⟩

/-- A request for one field only, made with one write. -/
theorem keeps_ssid {w : FieldWrite} (hcommands : (s.turn a m r).commands = [.fieldWrite w])
    (honly : Only (s.moduleFieldWrite a w).kept (.ssid r.1.ssid) (.ssid (content r.1.ssid)))
    (hmode : r.1.mode ≠ Mav.Wifi.kModeStation) (hssid : r.asksSsid = true) (hpassword : r.asksPassword = false) :
    Keeps r (s.process a m r).2 := by
  have htaken : ∀ field, r.taken field = field := fun field => if_neg hmode
  rw [World.process, hcommands]
  simp only [World.carryAll, World.carry, List.append_nil]
  refine ⟨fun _ => ?_, fun h => ?_, fun k hk => Or.inl ⟨hssid, ?_⟩⟩
  · rw [htaken]
    exact honly.mem
  · rw [hpassword] at h
    cases h
  · rw [htaken]
    exact honly.only k hk

theorem keeps_password {w : FieldWrite} (hcommands : (s.turn a m r).commands = [.fieldWrite w])
    (honly : Only (s.moduleFieldWrite a w).kept (.password r.1.password) (.password (content r.1.password)))
    (hmode : r.1.mode ≠ Mav.Wifi.kModeStation) (hssid : r.asksSsid = false) (hpassword : r.asksPassword = true) :
    Keeps r (s.process a m r).2 := by
  have htaken : ∀ field, r.taken field = field := fun field => if_neg hmode
  rw [World.process, hcommands]
  simp only [World.carryAll, World.carry, List.append_nil]
  refine ⟨fun h => ?_, fun _ => ?_, fun k hk => Or.inr ⟨hpassword, ?_⟩⟩
  · rw [hssid] at h
    cases h
  · rw [htaken]
    exact honly.mem
  · rw [htaken]
    exact honly.only k hk

theorem keeps_nothing (hkept : (s.process a m r).2 = []) (hssid : r.asksSsid = false) (hpassword : r.asksPassword = false) :
    Keeps r (s.process a m r).2 := by
  rw [hkept]
  refine ⟨fun h => ?_, fun h => ?_, by simp⟩
  · rw [hssid] at h
    cases h
  · rw [hpassword] at h
    cases h

/-- In the undefined mode, the handler is chosen by the fields that are used. -/
theorem keeps_undefined (hmode : r.1.mode = Mav.Wifi.kModeUndefined) : Keeps r (s.process a m r).2 := by
  obtain ⟨-, -, hvalidSsid, hvalidPassword⟩ := fields_valid r
  have hstation : r.1.mode ≠ Mav.Wifi.kModeStation := by rw [hmode]; decide
  have hasksSsid : r.asksSsid = r.1.hasSsid := if_pos hmode
  have hasksPassword : r.asksPassword = r.1.hasPassword := if_pos hmode
  cases hssid : r.1.hasSsid with
  | true =>
    cases hpassword : r.1.hasPassword with
    | true => exact keeps_connect hmode hssid hpassword
    | false =>
      refine keeps_ssid ?_ (apSsid_kept hvalidSsid) hstation (hasksSsid.trans hssid) (hasksPassword.trans hpassword)
      rw [World.turn, Mav.Wifi.processConfigAp, if_pos hmode, hssid, hpassword]
      rfl
  | false =>
    cases hpassword : r.1.hasPassword with
    | true =>
      refine keeps_password ?_ (apPassword_kept hvalidPassword) hstation (hasksSsid.trans hssid)
        (hasksPassword.trans hpassword)
      rw [World.turn, Mav.Wifi.processConfigAp, if_pos hmode, hssid, hpassword]
      rfl
    | false =>
      refine keeps_nothing ?_ (hasksSsid.trans hssid) (hasksPassword.trans hpassword)
      have hcommands : (s.turn a m r).commands = [.fieldWrite (.staInitialized false)] := by
        rw [World.turn, Mav.Wifi.processConfigAp, if_pos hmode, hssid, hpassword]
        rfl
      rw [World.process, hcommands]
      simp only [World.carryAll, World.carry, List.append_nil]
      exact staDisconnect_kept

theorem takeWhile_eq_content (field : List UInt8) : field.takeWhile (· != 0) = content field := by
  have hne : (fun b : UInt8 => b != 0) = fun b => decide (b ≠ 0) := by
    funext b
    rw [Bool.eq_iff_iff]
    simp
  rw [hne]
  rfl

/-- Station mode connects with the contents as they are. -/
theorem keeps_station (hmode : r.1.mode = Mav.Wifi.kModeStation) :
    (s.turn a m r).commands = [.wifiStaConnect (content r.1.ssid) (content r.1.password)] ∧ Keeps r (s.process a m r).2 := by
  have hundefined : r.1.mode ≠ Mav.Wifi.kModeUndefined := by rw [hmode]; decide
  have hap : r.1.mode ≠ Mav.Wifi.kModeAp := by rw [hmode]; decide
  have htaken : ∀ field, r.taken field = content field := fun field => if_pos hmode
  have hlength : 0 < (WifiConfigAp.field WifiConfigAp.kSsidSize r.1.ssid).length := by
    rw [Mav.Wifi.length_field]
    decide
  have hcommands : (s.turn a m r).commands = [.wifiStaConnect (content r.1.ssid) (content r.1.password)] := by
    rw [World.turn, Mav.Wifi.processConfigAp, if_neg hundefined, if_neg hap, if_pos hmode, Mav.Wifi.processConfigApSetSta,
      if_pos hlength]
    simp [Turn.respond, Turn.carryOut, takeWhile_eq_content]
  refine ⟨hcommands, ?_⟩
  have hssid : r.asksSsid = true := by simp [Request.asksSsid, hmode, Mav.Wifi.kModeStation, Mav.Wifi.kModeUndefined]
  have hpassword : r.asksPassword = true := by
    simp [Request.asksPassword, hmode, Mav.Wifi.kModeStation, Mav.Wifi.kModeUndefined]
  rw [World.process, hcommands]
  simp only [World.carryAll, World.carry, List.append_nil]
  refine ⟨fun _ => by simp [htaken], fun _ => by simp [htaken], fun k hk => ?_⟩
  simp only [List.mem_cons, List.not_mem_nil, or_false] at hk
  rcases hk with rfl | rfl
  · exact Or.inl ⟨hssid, Or.inr rfl⟩
  · exact Or.inr ⟨hpassword, Or.inr rfl⟩

theorem keeps (a : Answers) (s : World) (m : Message F) (r : Request) : Keeps r (s.process a m r).2 := by
  by_cases hundefined : r.1.mode = Mav.Wifi.kModeUndefined
  · exact keeps_undefined hundefined
  · by_cases hap : r.1.mode = Mav.Wifi.kModeAp
    · have hstation : r.1.mode ≠ Mav.Wifi.kModeStation := by rw [hap]; decide
      refine keeps_ssid ?_ (apSsid_kept (fields_valid r).2.2.1) hstation ?_ ?_
      · rw [World.turn, Mav.Wifi.processConfigAp, if_neg hundefined, if_pos hap]
        rfl
      · simp [Request.asksSsid, hap, Mav.Wifi.kModeAp, Mav.Wifi.kModeUndefined]
      · simp [Request.asksPassword, hap, Mav.Wifi.kModeAp, Mav.Wifi.kModeUndefined, Mav.Wifi.kModeStation]
    · by_cases hstation : r.1.mode = Mav.Wifi.kModeStation
      · exact (keeps_station hstation).2
      · refine keeps_nothing ?_ ?_ ?_
        · rw [World.process, World.turn, Mav.Wifi.processConfigAp, if_neg hundefined, if_neg hap, if_neg hstation]
          rfl
        · simp [Request.asksSsid, hundefined, hap, hstation]
        · simp [Request.asksPassword, hundefined, hstation]

/-! ## What is kept is proper -/

theorem content_content (field : List UInt8) : content (content field) = content field := by
  rw [content, content, cStr_val]

theorem content_eq_iff (field : List UInt8) : field = content field ↔ 0 ∉ field := by
  constructor
  · intro h
    rw [h]
    exact (cStr field).2
  · intro h
    rw [content, cStr_of_notMem h]

theorem content_taken (r : Request) (field : List UInt8) : content (r.taken field) = content field := by
  unfold Request.taken
  split
  · exact content_content field
  · rfl

theorem taken_eq_iff (r : Request) (field : List UInt8) :
    r.taken field = content field ↔ (r.1.mode ≠ Mav.Wifi.kModeStation → 0 ∉ field) := by
  unfold Request.taken
  by_cases hmode : r.1.mode = Mav.Wifi.kModeStation
  · simp [hmode]
  · simp [hmode, content_eq_iff]

theorem Keeps.proper_iff {kept : List Kept} (h : Keeps r kept) : (∀ k ∈ kept, k.Proper r) ↔ r.Valid ∧ r.Unpadded := by
  constructor
  · intro hproper
    have hssid : r.asksSsid = true → r.taken r.1.ssid = content r.1.ssid ∧
        Credentials.ssidIsValid (content r.1.ssid) = true := by
      intro hasks
      obtain ⟨htaken, hvalid⟩ := hproper _ (h.ssid hasks)
      rw [htaken] at hvalid
      exact ⟨htaken, hvalid⟩
    have hpassword : r.asksPassword = true → r.taken r.1.password = content r.1.password ∧
        Credentials.passwordIsValid (content r.1.password) = true := by
      intro hasks
      obtain ⟨htaken, hvalid⟩ := hproper _ (h.password hasks)
      rw [htaken] at hvalid
      exact ⟨htaken, hvalid⟩
    refine ⟨⟨fun hasks => (hssid hasks).2, fun hasks => (hpassword hasks).2⟩, ?_⟩
    refine fun hmode => ⟨fun hasks => ?_, fun hasks => ?_⟩
    · exact (taken_eq_iff r _).mp (hssid hasks).1 hmode
    · exact (taken_eq_iff r _).mp (hpassword hasks).1 hmode
  · intro ⟨hvalid, hunpadded⟩ k hk
    rcases h.only k hk with ⟨hasks, heq⟩ | ⟨hasks, heq⟩
    · have htaken := (taken_eq_iff r r.1.ssid).mpr fun hmode => (hunpadded hmode).1 hasks
      rw [htaken, or_self] at heq
      rw [heq]
      exact ⟨rfl, hvalid.1 hasks⟩
    · have htaken := (taken_eq_iff r r.1.password).mpr fun hmode => (hunpadded hmode).2 hasks
      rw [htaken, or_self] at heq
      rw [heq]
      exact ⟨rfl, hvalid.2 hasks⟩

theorem Keeps.proper_asCString_iff {kept : List Kept} (h : Keeps r kept) :
    (∀ k ∈ kept.map Kept.asCString, k.Proper r) ↔ r.Valid := by
  rw [List.forall_mem_map]
  constructor
  · intro hproper
    constructor
    · intro hasks
      have hvalid := (hproper _ (h.ssid hasks)).2
      rw [content_taken] at hvalid
      exact hvalid
    · intro hasks
      have hvalid := (hproper _ (h.password hasks)).2
      rw [content_taken] at hvalid
      exact hvalid
  · intro hvalid k hk
    rcases h.only k hk with ⟨hasks, heq⟩ | ⟨hasks, heq⟩
    · have hcut : k.asCString = .ssid (content r.1.ssid) := by
        rcases heq with rfl | rfl
        · rw [Kept.asCString, content_taken]
        · rw [Kept.asCString, content_content]
      rw [hcut]
      exact ⟨rfl, hvalid.1 hasks⟩
    · have hcut : k.asCString = .password (content r.1.password) := by
        rcases heq with rfl | rfl
        · rw [Kept.asCString, content_taken]
        · rw [Kept.asCString, content_content]
      rw [hcut]
      exact ⟨rfl, hvalid.2 hasks⟩

/-- A request for an empty SSID is not valid, and the rest of the promise is about others. -/
theorem asPromised_iff {kept : List Kept} (hproper : (∀ k ∈ kept, k.Proper r) → r.Valid) :
    AsPromised a s m r kept ↔ ∀ k ∈ kept, k.Proper r := by
  refine ⟨fun h => h.proper, fun h => ⟨h, fun hinvalid => absurd (hproper h) hinvalid, ?_⟩⟩
  intro hdisconnects
  have hasks : r.asksSsid = true := by
    simp [Request.asksSsid, hdisconnects.1, Mav.Wifi.kModeStation, Mav.Wifi.kModeUndefined]
  have hvalid := (hproper h).1 hasks
  rw [hdisconnects.2] at hvalid
  cases hvalid

end

/-- A request is dealt with as promised exactly where the strings it asks for are valid and
    the fields they are taken from whole are not padded; where a string that is kept is read
    up to its first NUL, exactly where those it asks for are valid. -/
theorem requests_iff (a : Answers) (s : World) (m : Message F) (r : Request) :
    (AsPromised a s m r (s.process a m r).2 ↔ r.Valid ∧ r.Unpadded) ∧
      (AsPromised a s m r ((s.process a m r).2.map Kept.asCString) ↔ r.Valid) := by
  have hkeeps := keeps a s m r
  constructor
  · rw [asPromised_iff fun h => (hkeeps.proper_iff.mp h).1]
    exact hkeeps.proper_iff
  · rw [asPromised_iff hkeeps.proper_asCString_iff.mp]
    exact hkeeps.proper_asCString_iff

def shortPassword : Request :=
  ⟨{ ssid := WifiConfigAp.field 32 (ascii "net"), password := WifiConfigAp.field 64 (ascii "123") }, by decide⟩

def message : Message Unit := .pack 1 (.wifiConfigAp shortPassword.1)

def answers : Answers where
  commit _ := .ok
  fetched := ⟨⟨.ok, []⟩, ⟨.ok, []⟩, ⟨.ok, 0⟩, ⟨.ok, []⟩, ⟨.ok, []⟩, ⟨.ok, []⟩⟩
  connected := true
  toNetworkIp4 _ := 0
  md5 _ := Vector.replicate 16 0

/-- A password of 3 characters is persisted, and connected with; its padding does not matter. -/
theorem a_short_password_is_stored :
    ¬ AsPromised answers {} message shortPassword (World.process answers {} message shortPassword).2 ∧
      ¬ AsPromised answers {} message shortPassword
          ((World.process answers {} message shortPassword).2.map Kept.asCString) := by
  have hshort : ¬ (Kept.password (ascii "123")).Proper shortPassword := fun h => absurd h.2 (by decide)
  constructor
  · intro h
    exact hshort (h.proper _ (by decide))
  · intro h
    exact hshort (h.proper _ (by decide))

end Esp32Cam.Wifi.Requests
