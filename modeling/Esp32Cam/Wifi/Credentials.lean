/-
  Esp32Cam.Wifi.Credentials — what the station connects with.

  The station keeps an SSID, a password and addresses. They are written through its
  fields, or fetched from the parameters when they are found not to be valid as a
  connection is asked for. The parameters are fetched one after the other into the
  credentials themselves: what has been fetched before an error stays, and may be valid
  together with what was there.

  `Traced` keeps where the SSID and the password come from. `replaced_as_a_unit_iff`: a
  fetch is all or nothing, and a connection is made with an SSID and a password that
  belong together, exactly as long as no fetch breaks off behind something new and no
  field is written alone.
-/

import Esp32Cam.Lib.Run
import Esp32Cam.Mod.Parameter

namespace Esp32Cam.Wifi

open Esp32Cam.Lib Esp32Cam.Mod.Par

/-! ## The credentials -/

def kSsidMinLength : Nat := 1
def kSsidMaxLength : Nat := 32
def kPasswordMinLength : Nat := 8
def kPasswordMaxLength : Nat := 64

structure Credentials where
  ssid : List UInt8 := []
  password : List UInt8 := []
  autoconnect : Bool := false
  ip : UInt32 := 0
  gateway : UInt32 := 0
  netmask : UInt32 := 0
  deriving DecidableEq, Repr

/-- A parameter behind its `fetch`. -/
structure Fetched (α : Type) where
  result : Result
  value : α
  deriving DecidableEq, Repr

structure Parameters where
  ssid : Fetched (List UInt8)
  password : Fetched (List UInt8)
  autoconnect : Fetched Int32
  ip : Fetched (List UInt8)
  gateway : Fetched (List UInt8)
  netmask : Fetched (List UInt8)
  deriving DecidableEq

/-- What `wifiStaConnect` is called with; without addresses, DHCP is used. -/
structure Connection where
  ssid : CString
  password : CString
  addresses : Option (UInt32 × UInt32 × UInt32)
  deriving DecidableEq

namespace Credentials

def ssidIsValid (ssid : List UInt8) : Bool := kSsidMinLength ≤ ssid.length && ssid.length ≤ kSsidMaxLength

def passwordIsValid (password : List UInt8) : Bool :=
  password.length == 0 || kPasswordMinLength ≤ password.length && password.length ≤ kPasswordMaxLength

def isValid (c : Credentials) : Bool := ssidIsValid c.ssid && passwordIsValid c.password

def trySetPassword (c : Credentials) (password : List UInt8) : Credentials × Bool :=
  if passwordIsValid password then ({ c with password }, true) else (c, false)

def trySetSsid (c : Credentials) (ssid : List UInt8) : Credentials × Bool :=
  if ssidIsValid ssid then ({ c with ssid }, true) else (c, false)

/-- The empty address is committed as well; nobody looks at the result. -/
def resetUseDhcp (c : Credentials) : Credentials := { c with ip := 0 }

def useDhcp (c : Credentials) : Bool := c.ip == 0

def connection (c : Credentials) : Connection where
  ssid := cStr c.ssid
  password := cStr c.password
  addresses := if c.useDhcp then none else some (c.ip, c.gateway, c.netmask)

/-- The SSID, the password and whether to connect: one after the other, up to the first error. -/
def fetchCredentials (c : Credentials) (p : Parameters) : Credentials × Result :=
  if p.ssid.result ≠ .ok then (c, p.ssid.result)
  else
    let c := { c with ssid := p.ssid.value }
    if p.password.result ≠ .ok then (c, p.password.result)
    else
      let c := { c with password := p.password.value }
      if p.autoconnect.result ≠ .ok then (c, p.autoconnect.result)
      else ({ c with autoconnect := p.autoconnect.value ≠ 0 }, .ok)

/-- `ipStringToNetworkIp4` is a parameter. -/
def fetchAddresses (toNetworkIp4 : List UInt8 → UInt32) (c : Credentials) (p : Parameters) : Credentials :=
  let c := if p.ip.result = .ok then { c with ip := toNetworkIp4 p.ip.value } else c
  let c := if p.gateway.result = .ok then { c with gateway := toNetworkIp4 p.gateway.value } else c
  if p.netmask.result = .ok then { c with netmask := toNetworkIp4 p.netmask.value } else c

/-- The addresses are fetched in any case. -/
def fetch (toNetworkIp4 : List UInt8 → UInt32) (c : Credentials) (p : Parameters) : Credentials × Result :=
  let (c, result) := c.fetchCredentials p
  (c.fetchAddresses toNetworkIp4 p, result)

end Credentials

/-! ## The station -/

inductive StaWrite where
  | password (password : List UInt8)
  | ssid (ssid : List UInt8)
  | initialized (enable : Bool)
  | ip (ip : UInt32)
  | netmask (netmask : UInt32)
  | gateway (gateway : UInt32)
  deriving DecidableEq, Repr

/-- What a call has come to: the message of a refusal, and the connection that has been asked for. -/
structure Called where
  credentials : Credentials
  refusal : Option String := none
  connection : Option Connection := none
  deriving DecidableEq

/-- `connected` is what `wifiStaConnect` returns. -/
def tryFetchConnect (toNetworkIp4 : List UInt8 → UInt32) (c : Credentials) (p : Parameters) (connected : Bool) :
    Called × Bool :=
  let (c, result) : Credentials × Bool :=
    if !c.isValid then
      let (c, fetchResult) := c.fetch toNetworkIp4 p
      (c, fetchResult == .ok && c.isValid)
    else (c, true)
  if result && c.autoconnect then ({ credentials := c, connection := some c.connection }, connected)
  else ({ credentials := c }, result)

def setFieldValue (toNetworkIp4 : List UInt8 → UInt32) (c : Credentials) (p : Parameters) (connected : Bool) :
    StaWrite → Called
  | .password password =>
    let (c, success) := c.trySetPassword password
    { credentials := c, refusal := if success then none else some "Wrong password format" }
  | .ssid ssid =>
    let (c, success) := c.trySetSsid ssid
    if success then { credentials := c.resetUseDhcp } else { credentials := c, refusal := some "Wrong SSID format" }
  | .initialized true =>
    let (called, success) := tryFetchConnect toNetworkIp4 { c with autoconnect := true } p connected
    { called with
      refusal := if success then none else some "Unable to fetch conn. credentials, or execute the connection" }
  | .initialized false => { credentials := { c with autoconnect := false } }
  | .ip ip => { credentials := { c with ip } }
  | .netmask netmask => { credentials := { c with netmask } }
  | .gateway gateway => { credentials := { c with gateway } }

/-! ## Where the credentials come from -/

inductive Origin where
  | initial
  | api
  /-- The fetch of this number. -/
  | fetched (n : Nat)
  deriving DecidableEq, Repr

structure Traced where
  credentials : Credentials := {}
  ssidFrom : Origin := .initial
  passwordFrom : Origin := .initial
  fetches : Nat := 0
  deriving DecidableEq, Repr

inductive Event where
  | write (w : StaWrite) (p : Parameters) (connected : Bool)
  | tryFetchConnect (p : Parameters) (connected : Bool)
  deriving DecidableEq

/-- The credentials a connection is asked for with, and what the parameters are then. -/
def asks (c : Credentials) : Event → Option (Credentials × Parameters)
  | .tryFetchConnect p _ => some (c, p)
  | .write (.initialized true) p _ => some ({ c with autoconnect := true }, p)
  | .write .. => none

def called (toNetworkIp4 : List UInt8 → UInt32) (c : Credentials) : Event → Called
  | .tryFetchConnect p connected => (tryFetchConnect toNetworkIp4 c p connected).1
  | .write w p connected => setFieldValue toNetworkIp4 c p connected w

namespace Traced

def noteFetch (t : Traced) (p : Parameters) : Traced :=
  { t with
    ssidFrom := if p.ssid.result = .ok then .fetched t.fetches else t.ssidFrom
    passwordFrom := if p.ssid.result = .ok ∧ p.password.result = .ok then .fetched t.fetches else t.passwordFrom
    fetches := t.fetches + 1 }

/-- Where the credentials are from behind the event. -/
def note (t : Traced) (e : Event) : Traced :=
  match asks t.credentials e with
  | some (c, p) => if c.isValid then t else t.noteFetch p
  | none =>
    match e with
    | .write (.password password) _ _ => if Credentials.passwordIsValid password then { t with passwordFrom := .api } else t
    | .write (.ssid ssid) _ _ => if Credentials.ssidIsValid ssid then { t with ssidFrom := .api } else t
    | _ => t

def step (toNetworkIp4 : List UInt8 → UInt32) (t : Traced) (e : Event) : Traced :=
  { t.note e with credentials := (called toNetworkIp4 t.credentials e).credentials }

end Traced

/-! ## As a unit -/

def Complete (p : Parameters) : Prop := p.ssid.result = .ok ∧ p.password.result = .ok ∧ p.autoconnect.result = .ok

section
variable (toNetworkIp4 : List UInt8 → UInt32)

/-- The fetch has taken all, or nothing. -/
structure FetchedAsAUnit (c : Credentials) (p : Parameters) : Prop where
  stored : (c.fetch toNetworkIp4 p).2 = .ok → p.ssid.result = .ok ∧ (c.fetch toNetworkIp4 p).1.ssid = p.ssid.value ∧
    p.password.result = .ok ∧ (c.fetch toNetworkIp4 p).1.password = p.password.value ∧
    p.autoconnect.result = .ok ∧ (c.fetch toNetworkIp4 p).1.autoconnect = decide (p.autoconnect.value ≠ 0)
  unchanged : (c.fetch toNetworkIp4 p).2 ≠ .ok → (c.fetch toNetworkIp4 p).1 = c

/-- All three are fetched, or whatever is fetched is what is there. -/
def Replaceable (c : Credentials) (p : Parameters) : Prop :=
  Complete p ∨
    ((p.ssid.result = .ok → p.ssid.value = c.ssid ∧ (p.password.result = .ok → p.password.value = c.password)) ∧
      (p.ip.result = .ok → toNetworkIp4 p.ip.value = c.ip) ∧
      (p.gateway.result = .ok → toNetworkIp4 p.gateway.value = c.gateway) ∧
      (p.netmask.result = .ok → toNetworkIp4 p.netmask.value = c.netmask))

/-- An SSID and a password that have been stored together, or have both been set. -/
def Together : Origin → Origin → Prop
  | .api, .api => True
  | .fetched n, .fetched m => n = m
  | _, _ => False

def ReplacedAsAUnit (t : Traced) (e : Event) : Prop :=
  (∀ c p, asks t.credentials e = some (c, p) → c.isValid = false → FetchedAsAUnit toNetworkIp4 c p) ∧
    ((called toNetworkIp4 t.credentials e).connection ≠ none →
      Together (t.step toNetworkIp4 e).ssidFrom (t.step toNetworkIp4 e).passwordFrom)

/-- Credentials a connection is made with as they are have one origin, and others can be fetched as a unit. -/
def Unmixed (t : Traced) (e : Event) : Prop :=
  ∀ c p, asks t.credentials e = some (c, p) →
    if c.isValid then c.autoconnect = true → t.ssidFrom = t.passwordFrom else Replaceable toNetworkIp4 c p

variable {toNetworkIp4}

theorem fetchAddresses_eq (c : Credentials) (p : Parameters) : c.fetchAddresses toNetworkIp4 p =
    { c with
      ip := if p.ip.result = .ok then toNetworkIp4 p.ip.value else c.ip
      gateway := if p.gateway.result = .ok then toNetworkIp4 p.gateway.value else c.gateway
      netmask := if p.netmask.result = .ok then toNetworkIp4 p.netmask.value else c.netmask } := by
  unfold Credentials.fetchAddresses
  split <;> split <;> split <;> rfl

theorem fetchCredentials_of_complete {c : Credentials} {p : Parameters} (h : Complete p) : c.fetchCredentials p =
    ({ c with ssid := p.ssid.value, password := p.password.value, autoconnect := p.autoconnect.value ≠ 0 }, .ok) := by
  simp [Credentials.fetchCredentials, h.1, h.2.1, h.2.2]

/-- Behind an error, the fields before it have been fetched. -/
theorem fetchCredentials_of_error {c : Credentials} {p : Parameters} (h : ¬ Complete p) :
    (c.fetchCredentials p).2 ≠ .ok ∧ (c.fetchCredentials p).1 =
      { c with
        ssid := if p.ssid.result = .ok then p.ssid.value else c.ssid
        password := if p.ssid.result = .ok ∧ p.password.result = .ok then p.password.value else c.password } := by
  unfold Credentials.fetchCredentials
  by_cases hssid : p.ssid.result = .ok
  · by_cases hpassword : p.password.result = .ok
    · have hautoconnect : p.autoconnect.result ≠ .ok := fun hok => h ⟨hssid, hpassword, hok⟩
      simp [hssid, hpassword, hautoconnect]
    · simp [hssid, hpassword]
  · simp [hssid]

theorem fetch_result (c : Credentials) (p : Parameters) : (c.fetch toNetworkIp4 p).2 = .ok ↔ Complete p := by
  by_cases h : Complete p
  · exact iff_of_true (congrArg Prod.snd (fetchCredentials_of_complete h)) h
  · exact iff_of_false (fetchCredentials_of_error h).1 h

theorem fetch_of_complete {c : Credentials} {p : Parameters} (h : Complete p) :
    (c.fetch toNetworkIp4 p).1.ssid = p.ssid.value ∧ (c.fetch toNetworkIp4 p).1.password = p.password.value ∧
      (c.fetch toNetworkIp4 p).1.autoconnect = decide (p.autoconnect.value ≠ 0) := by
  simp [Credentials.fetch, fetchCredentials_of_complete h, fetchAddresses_eq]

/-- The credentials are as they were where all that has been fetched was there. -/
theorem fetch_unchanged_iff {c : Credentials} {p : Parameters} (h : ¬ Complete p) :
    (c.fetch toNetworkIp4 p).1 = c ↔
      (p.ssid.result = .ok → p.ssid.value = c.ssid ∧ (p.password.result = .ok → p.password.value = c.password)) ∧
        (p.ip.result = .ok → toNetworkIp4 p.ip.value = c.ip) ∧
        (p.gateway.result = .ok → toNetworkIp4 p.gateway.value = c.gateway) ∧
        (p.netmask.result = .ok → toNetworkIp4 p.netmask.value = c.netmask) := by
  have hfetch : (c.fetch toNetworkIp4 p).1 = (c.fetchCredentials p).1.fetchAddresses toNetworkIp4 p := rfl
  rw [hfetch, fetchAddresses_eq, (fetchCredentials_of_error h).2]
  obtain ⟨ssid, password, autoconnect, ip, gateway, netmask⟩ := c
  simp only [Credentials.mk.injEq, ite_eq_right_iff, and_imp, true_and]
  constructor
  · intro h
    rcases h with ⟨hssid, hpassword, hip, hgateway, hnetmask⟩
    exact ⟨fun hok => ⟨hssid hok, hpassword hok⟩, hip, hgateway, hnetmask⟩
  · intro h
    rcases h with ⟨hboth, hip, hgateway, hnetmask⟩
    exact ⟨fun hok => (hboth hok).1, fun hok => (hboth hok).2, hip, hgateway, hnetmask⟩

theorem fetchedAsAUnit_iff (c : Credentials) (p : Parameters) :
    FetchedAsAUnit toNetworkIp4 c p ↔ Replaceable toNetworkIp4 c p := by
  by_cases h : Complete p
  · obtain ⟨hssid, hpassword, hautoconnect⟩ := @fetch_of_complete toNetworkIp4 c _ h
    exact iff_of_true ⟨fun _ => ⟨h.1, hssid, h.2.1, hpassword, h.2.2, hautoconnect⟩,
      fun herror => absurd ((fetch_result c p).mpr h) herror⟩ (Or.inl h)
  · have herror : (c.fetch toNetworkIp4 p).2 ≠ .ok := fun hok => h ((fetch_result c p).mp hok)
    constructor
    · intro hunit
      exact Or.inr ((fetch_unchanged_iff h).mp (hunit.unchanged herror))
    · intro hreplaceable
      exact ⟨fun hok => absurd hok herror, fun _ => (fetch_unchanged_iff h).mpr (hreplaceable.resolve_left h)⟩

/-! ## Over a run -/

/-- An SSID that has never been written is empty. -/
def Named (t : Traced) : Prop := t.ssidFrom = .initial → t.credentials.ssid = []

variable {t : Traced} {e : Event} {c : Credentials} {p : Parameters}

theorem together_iff {o o' : Origin} (h : o ≠ .initial) : Together o o' ↔ o = o' := by
  cases o with
  | initial => exact absurd rfl h
  | api => cases o' <;> simp [Together]
  | fetched n => cases o' <;> simp [Together]

theorem asks_ssid (h : asks t.credentials e = some (c, p)) : c.ssid = t.credentials.ssid := by
  cases e with
  | tryFetchConnect q connected =>
    cases h
    rfl
  | write w q connected =>
    cases w with
    | initialized enable =>
      cases enable with
      | true =>
        cases h
        rfl
      | false => cases h
    | _ => cases h

/-- A connection is asked for in one way. -/
theorem called_of_asks (h : asks t.credentials e = some (c, p)) : ∃ connected,
    (called toNetworkIp4 t.credentials e).credentials = (tryFetchConnect toNetworkIp4 c p connected).1.credentials ∧
      (called toNetworkIp4 t.credentials e).connection = (tryFetchConnect toNetworkIp4 c p connected).1.connection := by
  cases e with
  | tryFetchConnect q connected =>
    cases h
    exact ⟨connected, rfl, rfl⟩
  | write w q connected =>
    cases w with
    | initialized enable =>
      cases enable with
      | true =>
        cases h
        exact ⟨connected, rfl, rfl⟩
      | false => cases h
    | _ => cases h

theorem not_connected_of_asks (h : asks t.credentials e = none) :
    (called toNetworkIp4 t.credentials e).connection = none := by
  cases e with
  | tryFetchConnect q connected => cases h
  | write w q connected =>
    cases w with
    | initialized enable =>
      cases enable with
      | true => cases h
      | false => rfl
    | ssid ssid =>
      simp only [called, setFieldValue]
      split <;> rfl
    | _ => rfl

theorem tryFetchConnect_of_valid (h : c.isValid = true) (connected : Bool) :
    (tryFetchConnect toNetworkIp4 c p connected).1.credentials = c ∧
      ((tryFetchConnect toNetworkIp4 c p connected).1.connection ≠ none ↔ c.autoconnect = true) := by
  unfold tryFetchConnect
  cases hauto : c.autoconnect <;> simp [h, hauto]

/-- Behind a fetch, a connection is made when it has been complete. -/
theorem tryFetchConnect_of_invalid (h : c.isValid = false) (connected : Bool) :
    (tryFetchConnect toNetworkIp4 c p connected).1.credentials = (c.fetch toNetworkIp4 p).1 ∧
      ((tryFetchConnect toNetworkIp4 c p connected).1.connection ≠ none → Complete p) := by
  unfold tryFetchConnect
  simp only [h, Bool.not_false, if_true]
  split
  · rename_i hconnect
    refine ⟨rfl, fun _ => (@fetch_result toNetworkIp4 c p).mp ?_⟩
    rw [Bool.and_eq_true, Bool.and_eq_true] at hconnect
    exact beq_iff_eq.mp hconnect.1.1
  · exact ⟨rfl, fun hnone => absurd rfl hnone⟩

theorem ssid_ne_nil_of_valid (h : c.isValid = true) : c.ssid ≠ [] := by
  intro hnil
  simp [Credentials.isValid, Credentials.ssidIsValid, hnil, kSsidMinLength] at h

theorem replacedAsAUnit_iff (hnamed : Named t) (e : Event) :
    ReplacedAsAUnit toNetworkIp4 t e ↔ Unmixed toNetworkIp4 t e := by
  unfold ReplacedAsAUnit Unmixed
  cases hasks : asks t.credentials e with
  | none => simp [not_connected_of_asks hasks]
  | some asked =>
    obtain ⟨c, p⟩ := asked
    obtain ⟨connected, -, hconnection⟩ := @called_of_asks toNetworkIp4 _ _ _ _ hasks
    rw [hconnection]
    cases hvalid : c.isValid with
    | true =>
      obtain ⟨-, hmade⟩ := @tryFetchConnect_of_valid toNetworkIp4 _ p hvalid connected
      have hnote : t.note e = t := by simp [Traced.note, hasks, hvalid]
      have hwritten : t.ssidFrom ≠ .initial := by
        intro hinitial
        exact ssid_ne_nil_of_valid hvalid ((asks_ssid hasks).trans (hnamed hinitial))
      rw [hmade, Traced.step, hnote, together_iff hwritten]
      constructor
      · intro h c' p' heq
        cases heq
        rw [if_pos hvalid]
        exact h.2
      · intro h
        have hsame := h c p rfl
        rw [if_pos hvalid] at hsame
        refine ⟨fun c' p' heq hinvalid => ?_, hsame⟩
        cases heq
        rw [hvalid] at hinvalid
        cases hinvalid
    | false =>
      obtain ⟨-, hmade⟩ := @tryFetchConnect_of_invalid toNetworkIp4 _ p hvalid connected
      have hnote : t.note e = t.noteFetch p := by simp [Traced.note, hasks, hvalid]
      constructor
      · intro h c' p' heq
        cases heq
        rw [hvalid, if_neg Bool.false_ne_true]
        exact (fetchedAsAUnit_iff c p).mp (h.1 c p rfl hvalid)
      · intro h
        refine ⟨fun c' p' heq hinvalid => ?_, fun hconnected => ?_⟩
        · cases heq
          have hreplaceable := h c p rfl
          rw [hvalid, if_neg Bool.false_ne_true] at hreplaceable
          exact (fetchedAsAUnit_iff c p).mpr hreplaceable
        · have hcomplete := hmade hconnected
          simp [Traced.step, hnote, Traced.noteFetch, hcomplete.1, hcomplete.2.1, Together]

theorem fetch_ssid_of_error (h : p.ssid.result ≠ .ok) : (c.fetch toNetworkIp4 p).1.ssid = c.ssid := by
  have hfetch : (c.fetch toNetworkIp4 p).1 = (c.fetchCredentials p).1.fetchAddresses toNetworkIp4 p := rfl
  rw [hfetch, fetchAddresses_eq, (fetchCredentials_of_error fun hcomplete => h hcomplete.1).2]
  exact if_neg h

theorem write_named {w : StaWrite} {connected : Bool} (hnamed : Named t)
    (hasks : asks t.credentials (.write w p connected) = none) :
    Named (t.step toNetworkIp4 (.write w p connected)) := by
  intro hinitial
  cases w with
  | password password =>
    simp only [Traced.step, Traced.note, hasks, called, setFieldValue, Credentials.trySetPassword] at hinitial ⊢
    split at hinitial <;> split <;> exact hnamed hinitial
  | ssid ssid =>
    simp only [Traced.step, Traced.note, hasks, called, setFieldValue, Credentials.trySetSsid] at hinitial ⊢
    split at hinitial
    · cases hinitial
    · rename_i hinvalid
      simp only [hinvalid, Bool.false_eq_true, if_false]
      exact hnamed hinitial
  | initialized enable =>
    cases enable with
    | true => cases hasks
    | false => exact hnamed hinitial
  | ip | netmask | gateway => exact hnamed hinitial

/-- Only a write or a fetch gives the SSID another origin, and with it a value. -/
theorem step_named (hnamed : Named t) (e : Event) : Named (t.step toNetworkIp4 e) := by
  cases hasks : asks t.credentials e with
  | none =>
    cases e with
    | write w p connected => exact write_named hnamed hasks
    | tryFetchConnect p connected => cases hasks
  | some asked =>
    obtain ⟨c, p⟩ := asked
    obtain ⟨connected, hcredentials, -⟩ := @called_of_asks toNetworkIp4 _ _ _ _ hasks
    intro hinitial
    rw [Traced.step, hcredentials]
    cases hvalid : c.isValid with
    | true =>
      simp only [Traced.step, Traced.note, hasks, hvalid, if_true] at hinitial
      rw [(tryFetchConnect_of_valid hvalid connected).1, asks_ssid hasks]
      exact hnamed hinitial
    | false =>
      simp only [Traced.step, Traced.note, hasks, hvalid, Bool.false_eq_true, if_false, Traced.noteFetch] at hinitial
      rw [(tryFetchConnect_of_invalid hvalid connected).1]
      split at hinitial
      · cases hinitial
      · rename_i herror
        rw [fetch_ssid_of_error herror, asks_ssid hasks]
        exact hnamed hinitial

/-- Fetches are all or nothing exactly where they can be; and in every run of writes and
    attempts to connect, fetches are so and an SSID and a password that are handed over
    together belong together, exactly as long as every attempt finds credentials of one
    origin, or parameters it can take as a unit. -/
theorem replaced_as_a_unit_iff :
    (∀ c p, FetchedAsAUnit toNetworkIp4 c p ↔ Replaceable toNetworkIp4 c p) ∧
      ∀ es : List Event, Along (Traced.step toNetworkIp4) (ReplacedAsAUnit toNetworkIp4) {} es ↔
        Along (Traced.step toNetworkIp4) (Unmixed toNetworkIp4) {} es := by
  refine ⟨fetchedAsAUnit_iff, fun es => ?_⟩
  apply along_iff (I := Named)
  · exact fun t e hnamed => step_named hnamed e
  · exact fun t e hnamed => replacedAsAUnit_iff hnamed e
  · exact fun _ => rfl

end

/-! ## A password nobody has stored -/

def ssidAlone : Parameters where
  ssid := ⟨.ok, ascii "net"⟩
  password := ⟨.entryNotFoundError, []⟩
  autoconnect := ⟨.entryNotFoundError, 0⟩
  ip := ⟨.entryNotFoundError, []⟩
  gateway := ⟨.entryNotFoundError, []⟩
  netmask := ⟨.entryNotFoundError, []⟩

/-- A password is set and connecting is asked for twice: the first time the fetch breaks off
    behind the SSID, the second time this is valid together with the password. -/
def askedTwice : List Event :=
  [.write (.password (ascii "12345678")) ssidAlone true, .write (.initialized true) ssidAlone true,
    .write (.initialized true) ssidAlone true]

theorem a_stored_name_and_a_set_password :
    ¬ FetchedAsAUnit (fun _ => 0) {} ssidAlone ∧
      ¬ Along (Traced.step fun _ => 0) (ReplacedAsAUnit fun _ => 0) {} askedTwice := by
  refine ⟨fun h => ?_, fun h => ?_⟩
  · have hunchanged := h.unchanged (by decide)
    revert hunchanged
    decide
  · have htogether := h.2.2.1.2 (by decide)
    exact htogether

end Esp32Cam.Wifi
