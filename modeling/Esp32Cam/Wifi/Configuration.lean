/-
  Esp32Cam.Wifi.Configuration — what is copied into the driver's configurations.

  `wifi_sta_config_t` and `wifi_ap_config_t` begin with the SSID, 32 bytes, and the
  password, 64. Both are cleared and the strings copied with their NULs: a password of 64
  characters has its NUL behind the fields. The station's password is copied first, so the
  NUL of an SSID of 32 characters makes an empty string of it; the access point's is copied
  last, and survives.

  The station connects with what its validators accept, the access point starts with
  whatever password is on the SD card (`boot`). `driver_configuration_iff`: where the
  configuration is what was given, and nothing is written behind it.
-/

import Esp32Cam.Lib.CString
import Esp32Cam.Wifi.Credentials

namespace Esp32Cam.Wifi

open Esp32Cam.Lib Esp32Cam.Mod.Par

/-- The strings the validators accept. -/
abbrev Ssid := { s : CString // Credentials.ssidIsValid s.1 = true }
abbrev Password := { s : CString // Credentials.passwordIsValid s.1 = true }

/-- Where the fields are, and how many bytes they have. -/
def kSsidOffset : Nat := 0
def kSsidSize : Nat := 32
def kPasswordOffset : Nat := 32
def kPasswordSize : Nat := 64

/-- `wifi_config_t`, byte by byte; what is behind the two fields is not looked at. -/
abbrev WifiConfig := Nat → UInt8

/-- Behind `memset`. -/
def WifiConfig.cleared : WifiConfig := fun _ => 0

def WifiConfig.getSsid (m : WifiConfig) : List UInt8 := readField m kSsidOffset kSsidSize
def WifiConfig.getPassword (m : WifiConfig) : List UInt8 := readField m kPasswordOffset kPasswordSize

/-- Whether the calls before the copies, and `esp_wifi_set_config`, succeed. -/
structure Driver where
  netif : Bool := true
  setConfig : Bool := true
  deriving DecidableEq, Repr

structure Copy where
  offset : Nat
  string : List UInt8
  deriving DecidableEq, Repr

/-- The copies made, and the configuration the driver has been given. -/
structure Configured where
  copies : List Copy := []
  config : Option WifiConfig := none

def configure (d : Driver) (copies : List Copy) : Configured :=
  let written := copies.foldl (fun m c => strcpy m c.offset c.string) WifiConfig.cleared
  if !d.netif then {} else { copies, config := if d.setConfig then some written else none }

def wifiConfigStaConnection (d : Driver) (targetApSsid targetApPassword : CString) : Configured :=
  configure d [⟨kPasswordOffset, targetApPassword.1⟩, ⟨kSsidOffset, targetApSsid.1⟩]

/-- An empty password is not copied. Where a call fails, the program is aborted. -/
def wifiConfigApConnection (d : Driver) (aSsid aPassword : CString) : Configured :=
  let usePassword := aPassword.1.length ≠ 0
  configure d (⟨kSsidOffset, aSsid.1⟩ :: if usePassword then [⟨kPasswordOffset, aPassword.1⟩] else [])

/-! ## Boot -/

/-- `CONFIG_ESP_WIFI_SSID` by `sdkconfig`. -/
inductive Board where
  | salute
  | pioneer
  | pioneerMini
  deriving DecidableEq, Repr

def Board.kConfigSsid : Board → List UInt8
  | .salute => ascii "Salute"
  | .pioneer => ascii "Pioneer"
  | .pioneerMini => ascii "PioneerMini"

/-- `CONFIG_ESP_WIFI_PASSWORD`, the same for all. -/
def kConfigPassword : List UInt8 := ascii "12345678"

def hexDigits (b : UInt8) : List UInt8 :=
  [b / 16, b % 16].map fun d => if d < 10 then 0x30 + d else 0x61 + (d - 10)

/-- The prefix, and the MAC behind it. -/
def decorateSsid (board : Board) (mac : Vector UInt8 6) : List UInt8 := board.kConfigSsid ++ mac.toList.flatMap hexDigits

/-- The parameters as they are fetched at boot, and what the driver does in the three configurations. -/
structure Boot where
  board : Board
  mac : Vector UInt8 6
  userSsid : Fetched (List UInt8)
  userPassword : Fetched (List UInt8)
  sta : Parameters
  initDriver : Driver := {}
  apDriver : Driver := {}
  staDriver : Driver := {}

namespace Boot

def ssid (b : Boot) : List UInt8 :=
  let ussid := if b.userSsid.result = .ok then b.userSsid.value else []
  if 0 < ussid.length ∧ ussid.length ≤ kSsidSize then ussid else decorateSsid b.board b.mac

def password (b : Boot) : List UInt8 := if b.userPassword.result = .ok then b.userPassword.value else kConfigPassword

def apConnection (b : Boot) : Configured := wifiConfigApConnection b.apDriver (cStr b.ssid) (cStr b.password)

/-- `wifi_init_sta`, and `tryFetchConnect` of a station without credentials; an access point that
    could not be configured is the end of it. -/
def configured (toNetworkIp4 : List UInt8 → UInt32) (b : Boot) : List Configured :=
  let wifiInitSta := [wifiConfigStaConnection b.initDriver (cStr []) (cStr []), b.apConnection]
  if b.apConnection.config.isNone then wifiInitSta
  else match (tryFetchConnect toNetworkIp4 {} b.sta true).1.connection with
    | some c => wifiInitSta ++ [wifiConfigStaConnection b.staDriver c.ssid c.password]
    | none => wifiInitSta

end Boot

/-! ## What is promised -/

def Copy.Within (c : Copy) : Prop := c.offset + (c.string.length + 1) ≤ kPasswordOffset + kPasswordSize

/-- No copy goes past the fields, and they are read back as what was given. -/
structure Configured.Exact (r : Configured) (ssid password : List UInt8) : Prop where
  within : ∀ c ∈ r.copies, c.Within
  readBack : ∀ m, r.config = some m → m.getSsid = ssid ∧ m.getPassword = password

/-! ## The two configurations -/

section
variable {d : Driver} {ssid password : CString}

theorem ssidIsValid_length {s : List UInt8} (h : Credentials.ssidIsValid s = true) : 1 ≤ s.length ∧ s.length ≤ kSsidSize := by
  simp only [Credentials.ssidIsValid, Bool.and_eq_true, decide_eq_true_eq] at h
  exact h

theorem password_length (s : Password) : s.1.1.length ≤ 64 := by
  have h := s.2
  simp only [Credentials.passwordIsValid, Bool.or_eq_true, beq_iff_eq, Bool.and_eq_true, decide_eq_true_eq] at h
  simp only [kPasswordMinLength, kPasswordMaxLength] at h
  omega

/-- Behind both copies: the password first. -/
def staWritten (ssid password : CString) : WifiConfig :=
  strcpy (strcpy WifiConfig.cleared kPasswordOffset password.1) kSsidOffset ssid.1

/-- The SSID first. -/
def apWritten (ssid password : CString) : WifiConfig :=
  strcpy (strcpy WifiConfig.cleared kSsidOffset ssid.1) kPasswordOffset password.1

theorem staWritten_ssid (hssid : ssid.1.length ≤ kSsidSize) : (staWritten ssid password).getSsid = ssid.1 := by
  apply readField_of_holds ssid.2
  apply holds_strcpy hssid
  intro i hi hsize
  apply strcpy_keeps_nul (Or.inl ?_) rfl
  simp only [kSsidOffset, kSsidSize, kPasswordOffset] at *
  omega

/-- The SSID's NUL is the password's first byte where the SSID is as long as its field. -/
theorem staWritten_password (hssid : ssid.1.length ≤ kSsidSize) (hpassword : password.1.length ≤ kPasswordSize) :
    (staWritten ssid password).getPassword = password.1 ↔ ssid.1.length < kSsidSize ∨ password.1 = [] := by
  have hread : readField (strcpy WifiConfig.cleared kPasswordOffset password.1) kPasswordOffset kPasswordSize = password.1 :=
    readField_of_holds password.2 (holds_strcpy hpassword fun _ _ _ => rfl)
  by_cases hshort : ssid.1.length < kSsidSize
  · refine iff_of_true ?_ (Or.inl hshort)
    refine Eq.trans (strcpy_keeps (Or.inr ?_) (by decide)) hread
    simp only [kSsidOffset, kSsidSize, kPasswordOffset] at *
    omega
  · have hlast : ssid.1.length = kSsidSize := by omega
    have hnul : staWritten ssid password kPasswordOffset = 0 := by
      have hoffset : kPasswordOffset = kSsidOffset + ssid.1.length := by
        rw [hlast]
        rfl
      rw [hoffset]
      exact strcpy_nul _ _ _
    by_cases hempty : password.1 = []
    · refine iff_of_true ?_ (Or.inr hempty)
      rw [hempty]
      refine readField_of_holds (by simp) (holds_nil ?_)
      intro i hi hsize
      refine strcpy_keeps_nul (Or.inr ?_) (strcpy_keeps_nul (Or.inr ?_) rfl)
      · simp only [kSsidOffset, kSsidSize, kPasswordOffset] at *
        omega
      · rw [hempty]
        exact hi
    · exact iff_of_false (readField_of_cut (by decide) hnul hempty password.2) (fun h => h.elim hshort hempty)

theorem apWritten_ssid (hssid : ssid.1.length ≤ kSsidSize) : (apWritten ssid password).getSsid = ssid.1 := by
  refine Eq.trans (strcpy_keeps (Or.inl ?_) (by decide)) ?_
  · decide
  · exact readField_of_holds ssid.2 (holds_strcpy hssid fun _ _ _ => rfl)

theorem apWritten_password (hssid : ssid.1.length ≤ kSsidSize) (hpassword : password.1.length ≤ kPasswordSize) :
    (apWritten ssid password).getPassword = password.1 := by
  apply readField_of_holds password.2
  apply holds_strcpy hpassword
  intro i hi hsize
  apply strcpy_keeps_nul (Or.inr ?_) rfl
  simp only [kSsidOffset, kSsidSize, kPasswordOffset] at *
  omega

/-! ## Copies and what is read back -/

theorem within_ssid (hssid : ssid.1.length ≤ kSsidSize) : (⟨kSsidOffset, ssid.1⟩ : Copy).Within := by
  simp only [Copy.Within, kSsidOffset, kSsidSize, kPasswordOffset, kPasswordSize] at *
  omega

theorem within_password : (⟨kPasswordOffset, password.1⟩ : Copy).Within ↔ password.1.length < kPasswordSize := by
  simp only [Copy.Within, kPasswordOffset, kPasswordSize]
  omega

theorem configure_copies (copies : List Copy) : (configure d copies).copies = if d.netif then copies else [] := by
  unfold configure
  cases d.netif <;> rfl

theorem configure_config (copies : List Copy) : (configure d copies).config =
    if d.netif && d.setConfig then some (copies.foldl (fun m c => strcpy m c.offset c.string) WifiConfig.cleared)
    else none := by
  unfold configure
  cases d.netif <;> rfl

theorem sta_within_iff (hssid : ssid.1.length ≤ kSsidSize) :
    (∀ c ∈ (wifiConfigStaConnection d ssid password).copies, c.Within) ↔
      (d.netif = true → password.1.length < kPasswordSize) := by
  rw [wifiConfigStaConnection, configure_copies]
  cases d.netif with
  | false => simp
  | true => simp [within_ssid hssid, within_password]

theorem sta_exact_iff (d : Driver) (ssid : Ssid) (password : Password) :
    (wifiConfigStaConnection d ssid.1 password.1).Exact ssid.1.1 password.1.1 ↔
      (d.netif = true → password.1.1.length < kPasswordSize) ∧
        (d = {} → ssid.1.1.length < kSsidSize ∨ password.1.1 = []) := by
  have hssid : ssid.1.1.length ≤ kSsidSize := (ssidIsValid_length ssid.2).2
  have hread := staWritten_password hssid (password_length password)
  constructor
  · intro h
    refine ⟨(sta_within_iff hssid).mp h.within, ?_⟩
    intro h
    rcases h with rfl
    exact hread.mp (h.readBack (staWritten ssid.1 password.1) rfl).2
  · intro h
    refine ⟨(sta_within_iff hssid).mpr h.1, fun m hm => ?_⟩
    rw [wifiConfigStaConnection, configure_config] at hm
    split at hm
    · rename_i hok
      rw [Bool.and_eq_true] at hok
      obtain ⟨netif, setConfig⟩ := d
      obtain ⟨rfl, rfl⟩ := hok
      obtain rfl := Option.some_inj.mp hm
      exact ⟨staWritten_ssid hssid, hread.mpr (h.2 rfl)⟩
    · cases hm

theorem ap_within_iff (hssid : ssid.1.length ≤ kSsidSize) :
    (∀ c ∈ (wifiConfigApConnection d ssid password).copies, c.Within) ↔
      (d.netif = true → password.1.length < kPasswordSize) := by
  rw [wifiConfigApConnection, configure_copies]
  cases d.netif with
  | false => simp
  | true =>
    by_cases hempty : password.1.length = 0
    · simp [hempty, within_ssid hssid, kPasswordSize]
    · simp [hempty, within_ssid hssid, within_password]

theorem ap_exact_iff (d : Driver) (ssid : Ssid) (password : Password) :
    (wifiConfigApConnection d ssid.1 password.1).Exact ssid.1.1 password.1.1 ↔
      (d.netif = true → password.1.1.length < kPasswordSize) := by
  have hssid : ssid.1.1.length ≤ kSsidSize := (ssidIsValid_length ssid.2).2
  constructor
  · intro h
    exact (ap_within_iff hssid).mp h.within
  · intro h
    refine ⟨(ap_within_iff hssid).mpr h, fun m hm => ?_⟩
    rw [wifiConfigApConnection, configure_config] at hm
    split at hm
    · obtain rfl := Option.some_inj.mp hm
      by_cases hempty : password.1.1 = []
      · simp only [hempty, List.length_nil, ne_eq, not_true_eq_false, if_false, List.foldl_cons, List.foldl_nil]
        refine ⟨readField_of_holds ssid.1.2 (holds_strcpy hssid fun _ _ _ => rfl), ?_⟩
        refine readField_of_holds (by simp) (holds_nil ?_)
        intro i hi hsize
        apply strcpy_keeps_nul (Or.inr ?_) rfl
        simp only [kSsidOffset, kSsidSize, kPasswordOffset] at *
        omega
      · have hlength : password.1.1.length ≠ 0 := fun hzero => hempty (List.eq_nil_of_length_eq_zero hzero)
        simp only [hlength, ne_eq, not_false_eq_true, if_true, List.foldl_cons, List.foldl_nil]
        exact ⟨apWritten_ssid hssid, apWritten_password hssid (password_length password)⟩
    · cases hm

/-! ## From the parameters -/

/-- The access point is up, and the station connects with what has been fetched. -/
def Boot.Connects (b : Boot) : Prop :=
  b.apDriver = {} ∧ Complete b.sta ∧ Credentials.ssidIsValid b.sta.ssid.value = true ∧
    Credentials.passwordIsValid b.sta.password.value = true ∧ b.sta.autoconnect.value ≠ 0

theorem decorateSsid_length (board : Board) (mac : Vector UInt8 6) : (decorateSsid board mac).length ≤ kSsidSize := by
  have hmac : (mac.toList.flatMap hexDigits).length = 12 := by simp [hexDigits]
  rw [decorateSsid, List.length_append, hmac]
  cases board <;> decide

theorem cStr_length_le (s : List UInt8) : (cStr s).1.length ≤ s.length := (List.takeWhile_sublist _).length_le

theorem Boot.ssid_length_le (b : Boot) : (cStr b.ssid).1.length ≤ kSsidSize := by
  refine Nat.le_trans (cStr_length_le _) ?_
  unfold Boot.ssid
  generalize (if b.userSsid.result = .ok then b.userSsid.value else []) = ussid
  dsimp only
  split
  · rename_i hsize
    exact hsize.2
  · exact decorateSsid_length b.board b.mac

section
variable {toNetworkIp4 : List UInt8 → UInt32} {b : Boot}

theorem apConnection_config : b.apConnection.config.isNone = false ↔ b.apDriver = {} := by
  have hdriver : b.apDriver = {} ↔ (b.apDriver.netif && b.apDriver.setConfig) = true := by
    obtain ⟨netif, setConfig⟩ := b.apDriver
    cases netif <;> cases setConfig <;> decide
  rw [hdriver, Boot.apConnection, wifiConfigApConnection, configure_config]
  split
  · rename_i hok
    simp [hok]
  · rename_i hok
    simp [hok]

/-- A station without credentials fetches, and connects with what it has fetched. -/
theorem boot_connection (p : Parameters) : (tryFetchConnect toNetworkIp4 {} p true).1.connection =
    if ((Credentials.fetch toNetworkIp4 {} p).2 == .ok && (Credentials.fetch toNetworkIp4 {} p).1.isValid) &&
      (Credentials.fetch toNetworkIp4 {} p).1.autoconnect
    then some (Credentials.fetch toNetworkIp4 {} p).1.connection else none := by
  have hinvalid : ({} : Credentials).isValid = false := rfl
  simp only [tryFetchConnect, hinvalid, Bool.not_false, if_true]
  split <;> rfl

theorem boot_connects (h : b.Connects) : ∃ c, (tryFetchConnect toNetworkIp4 {} b.sta true).1.connection = some c ∧
    c.password = cStr b.sta.password.value := by
  obtain ⟨-, hcomplete, hssid, hpassword, hauto⟩ := h
  obtain ⟨hssid', hpassword', hauto'⟩ := @fetch_of_complete toNetworkIp4 {} _ hcomplete
  refine ⟨(Credentials.fetch toNetworkIp4 {} b.sta).1.connection, ?_, ?_⟩
  · rw [boot_connection, (fetch_result _ _).mpr hcomplete, hauto', Credentials.isValid, hssid', hpassword', hssid, hpassword]
    simp [hauto]
  · rw [Credentials.connection, hpassword']

theorem connects_of_boot {c : Connection} (hap : b.apDriver = {})
    (h : (tryFetchConnect toNetworkIp4 {} b.sta true).1.connection = some c) :
    b.Connects ∧ c.ssid = cStr b.sta.ssid.value ∧ c.password = cStr b.sta.password.value := by
  rw [boot_connection] at h
  split at h
  · rename_i hconnects
    simp only [Bool.and_eq_true, beq_iff_eq] at hconnects
    obtain ⟨⟨hresult, hvalid⟩, hauto⟩ := hconnects
    have hcomplete := (fetch_result _ _).mp hresult
    obtain ⟨hssid', hpassword', hauto'⟩ := @fetch_of_complete toNetworkIp4 {} _ hcomplete
    rw [Credentials.isValid, hssid', hpassword', Bool.and_eq_true] at hvalid
    rw [hauto', decide_eq_true_eq] at hauto
    obtain rfl := Option.some_inj.mp h
    refine ⟨⟨hap, hcomplete, hvalid.1, hvalid.2, hauto⟩, ?_, ?_⟩
    · rw [Credentials.connection, hssid']
    · rw [Credentials.connection, hpassword']
  · cases h

/-- Whatever is stored: the access point's password has to leave room for its NUL, and the station's where it connects. -/
theorem boot_within_iff (toNetworkIp4 : List UInt8 → UInt32) (b : Boot) :
    (∀ r ∈ b.configured toNetworkIp4, ∀ c ∈ r.copies, c.Within) ↔
      (b.apDriver.netif = true → (cStr b.password).1.length < kPasswordSize) ∧
        (b.Connects → b.staDriver.netif = true → (cStr b.sta.password.value).1.length < kPasswordSize) := by
  have hap := @ap_within_iff b.apDriver _ (cStr b.password) b.ssid_length_le
  have hinit : ∀ c ∈ (wifiConfigStaConnection b.initDriver (cStr []) (cStr [])).copies, c.Within :=
    (sta_within_iff (Nat.zero_le _)).mpr fun _ => by decide
  unfold Boot.configured
  dsimp only
  cases hnone : b.apConnection.config.isNone with
  | true =>
    have hconnects : ¬ b.Connects := by
      intro h
      rw [apConnection_config.mpr h.1] at hnone
      cases hnone
    rw [if_pos rfl, List.forall_mem_cons, List.forall_mem_singleton, Boot.apConnection, hap]
    exact ⟨fun h => ⟨h.2, fun h' => absurd h' hconnects⟩, fun h => ⟨hinit, h.1⟩⟩
  | false =>
    have hdriver := apConnection_config.mp hnone
    rw [if_neg Bool.false_ne_true]
    cases hconnection : (tryFetchConnect toNetworkIp4 {} b.sta true).1.connection with
    | none =>
      have hconnects : ¬ b.Connects := by
        intro h
        obtain ⟨c, hc, -⟩ := @boot_connects toNetworkIp4 _ h
        rw [hconnection] at hc
        cases hc
      rw [List.forall_mem_cons, List.forall_mem_singleton, Boot.apConnection, hap]
      exact ⟨fun h => ⟨h.2, fun h' => absurd h' hconnects⟩, fun h => ⟨hinit, h.1⟩⟩
    | some c =>
      obtain ⟨hconnects, hssid, hpassword⟩ := connects_of_boot hdriver hconnection
      have hlength : c.ssid.1.length ≤ kSsidSize := by
        rw [hssid]
        exact Nat.le_trans (cStr_length_le _) (ssidIsValid_length hconnects.2.2.1).2
      have hsta := @sta_within_iff b.staDriver _ c.password hlength
      rw [List.forall_mem_append, List.forall_mem_cons, List.forall_mem_singleton, List.forall_mem_singleton,
        Boot.apConnection, hap, hsta, hpassword]
      exact ⟨fun h => ⟨h.1.2, fun _ => h.2⟩, fun h => ⟨⟨hinit, h.1⟩, h.2 hconnects⟩⟩

end

end

/-- The configurations are what was given, and nothing is written behind the fields, exactly
    where no password that is copied has 64 characters or more, and no SSID of 32 is set
    for the station together with a password. -/
theorem driver_configuration_iff (toNetworkIp4 : List UInt8 → UInt32) :
    (∀ d (ssid : Ssid) (password : Password), (wifiConfigStaConnection d ssid.1 password.1).Exact ssid.1.1 password.1.1 ↔
      (d.netif = true → password.1.1.length < kPasswordSize) ∧
        (d = {} → ssid.1.1.length < kSsidSize ∨ password.1.1 = [])) ∧
    (∀ d (ssid : Ssid) (password : Password), (wifiConfigApConnection d ssid.1 password.1).Exact ssid.1.1 password.1.1 ↔
      (d.netif = true → password.1.1.length < kPasswordSize)) ∧
    ∀ b : Boot, (∀ r ∈ b.configured toNetworkIp4, ∀ c ∈ r.copies, c.Within) ↔
      (b.apDriver.netif = true → (cStr b.password).1.length < kPasswordSize) ∧
        (b.Connects → b.staDriver.netif = true → (cStr b.sta.password.value).1.length < kPasswordSize) :=
  ⟨sta_exact_iff, ap_exact_iff, boot_within_iff toNetworkIp4⟩

/-- 32 characters, and 8 of a password. -/
def longestSsid : Ssid := ⟨⟨List.replicate 32 0x61, by decide⟩, by decide⟩
def shortPassword : Password := ⟨cStr kConfigPassword, by decide⟩

/-- The longest SSID takes the station's password away. -/
theorem the_password_is_lost :
    ¬ (wifiConfigStaConnection {} longestSsid.1 shortPassword.1).Exact longestSsid.1.1 shortPassword.1.1 := by
  intro h
  have hpassword := (h.readBack _ rfl).2
  revert hpassword
  decide

end Esp32Cam.Wifi
