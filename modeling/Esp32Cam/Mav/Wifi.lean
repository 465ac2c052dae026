/-
  Esp32Cam.Mav.Wifi — the microservice that sets up the Wi-Fi interfaces.

  WIFI_CONFIG_AP sets or connects: what it asks for is in which of its fields are used
  while its mode is undefined, and in the mode otherwise. The same message is what a
  request for it is answered with.

  The answers of the modules, of the Wi-Fi driver and of MD5 are the environment's
  (`Env`): a list for every write and read, one entry for each module that answers.
-/

import Esp32Cam.Mav.Microservice

namespace Esp32Cam.Mav.Wifi

open Turn

structure Env where
  staPassword : List Bool
  staStringIdentifier : List Bool
  staInitialized : List Bool
  apStringIdentifier : List Bool
  apPassword : List Bool
  readSta : List (List UInt8) × List (List UInt8)
  readAp : List (List UInt8) × List (List UInt8)
  connected : Bool
  md5 : List UInt8 → Vector UInt8 16

variable {F : Type}

def kModeUndefined : UInt8 := 0
def kModeAp : UInt8 := 1
def kModeStation : UInt8 := 2

def kResponseUndefined : UInt8 := 0
def kResponseAccepted : UInt8 := 1
def kResponseRejected : UInt8 := 2

end Wifi

namespace WifiConfigAp

def kSsidSize : Nat := 32
def kPasswordSize : Nat := 64

def field (size : Nat) (bytes : List UInt8) : List UInt8 := (bytes ++ List.replicate size 0).take size

def ssidFillZero (w : WifiConfigAp) : WifiConfigAp := { w with ssid := List.replicate kSsidSize 0 }
def passwordFillZero (w : WifiConfigAp) : WifiConfigAp := { w with password := List.replicate kPasswordSize 0 }

def copySsid (w : WifiConfigAp) (bytes : List UInt8) : WifiConfigAp := { w with ssid := bytes ++ w.ssid.drop bytes.length }

def hexDigit (n : UInt8) : UInt8 := if n < 10 then 0x30 + n else 0x61 + (n - 10)

/-- The digest of the string in the field, in hexadecimal. -/
def passwordIntoMd5Stringify (md5 : List UInt8 → Vector UInt8 16) (w : WifiConfigAp) : WifiConfigAp :=
  let digest := md5 (w.password.takeWhile (· != 0))
  { w with password := field kPasswordSize (digest.toList.flatMap fun b => [hexDigit (b / 16), hexDigit (b % 16)]) }

/-- 00 FF at the beginning of a field says that it is not used. -/
def hasSsid (w : WifiConfigAp) : Bool := w.ssid.getD 0 0 != 0x00 && w.ssid.getD 1 0 != 0xFF
def hasPassword (w : WifiConfigAp) : Bool := w.password.getD 0 0 != 0x00 && w.password.getD 1 0 != 0xFF

end WifiConfigAp

namespace Wifi

open Turn

variable {F : Type}

def processConfigApConnect (env : Env) (t : Turn F) (w : WifiConfigAp) : Turn F × Microservice.Ret :=
  let t := (t.carryOut (.fieldWrite (.staPassword w.password))).carryOut (.fieldWrite (.staStringIdentifier w.ssid))
  let success := env.staPassword.all id && env.staStringIdentifier.all id
  let (t, success) :=
    if success then (t.carryOut (.fieldWrite (.staInitialized true)), env.staInitialized.all id) else (t, success)
  let w :=
    if success then w.passwordIntoMd5Stringify env.md5
    else w.ssidFillZero.passwordFillZero.copySsid [0x00, 0x01]
  (t.respond Globals.getCompId (.wifiConfigAp w), .response)

def processConfigApDisconnect (env : Env) (t : Turn F) (w : WifiConfigAp) : Turn F × Microservice.Ret :=
  let t := t.carryOut (.fieldWrite (.staInitialized false))
  let w := if env.staInitialized.all id then w else w.copySsid [0x00, 0x02]
  (t.respond Globals.getCompId (.wifiConfigAp w), .response)

/-- The module that answers last decides. -/
def processConfigApSetSsid (env : Env) (t : Turn F) (w : WifiConfigAp) : Turn F × Microservice.Ret :=
  let t := t.carryOut (.fieldWrite (.apStringIdentifier w.ssid))
  let success := env.apStringIdentifier.getLast?.getD false
  let w := if success then w else w.ssidFillZero.copySsid [0x00, 0x03]
  (t.respond Globals.getCompId (.wifiConfigAp w), .response)

def processConfigApSetPassword (env : Env) (t : Turn F) (w : WifiConfigAp) : Turn F × Microservice.Ret :=
  let t := t.carryOut (.fieldWrite (.apPassword w.password))
  let success := env.apPassword.getLast?.getD false
  let w := if success then w.passwordIntoMd5Stringify env.md5 else w.passwordFillZero.copySsid [0x00, 0x04]
  (t.respond Globals.getCompId (.wifiConfigAp w), .response)

def processConfigApSetAp (env : Env) (t : Turn F) (w : WifiConfigAp) : Turn F × Microservice.Ret :=
  let t := t.carryOut (.fieldWrite (.apStringIdentifier w.ssid))
  let response := if env.apStringIdentifier.any id then kResponseAccepted else kResponseUndefined
  (t.respond Globals.getCompId (.wifiConfigAp { w with response }), .response)

/-- `std::string{ssid, sizeof(ssid)}` has as many characters as the field, whatever they are. -/
def processConfigApSetSta (env : Env) (t : Turn F) (w : WifiConfigAp) : Turn F × Microservice.Ret :=
  if 0 < (WifiConfigAp.field WifiConfigAp.kSsidSize w.ssid).length then
    let t := t.carryOut (.wifiStaConnect (w.ssid.takeWhile (· != 0)) (w.password.takeWhile (· != 0)))
    let response := if env.connected then kResponseAccepted else kResponseRejected
    (t.respond Globals.getCompId (.wifiConfigAp { w with response }), .response)
  else (t.carryOut .wifiDisconnect, .response)

/-- In a mode of none of the three kinds nothing is done, and `ret` is what it was set to first. -/
def processConfigAp (env : Env) (t : Turn F) (w : WifiConfigAp) : Turn F × Microservice.Ret :=
  if w.mode = kModeUndefined then
    match w.hasSsid, w.hasPassword with
    | true, true => processConfigApConnect env t w
    | false, false => processConfigApDisconnect env t w
    | true, false => processConfigApSetSsid env t w
    | false, true => processConfigApSetPassword env t w
  else if w.mode = kModeAp then ((processConfigApSetAp env t w).1, .response)
  else if w.mode = kModeStation then ((processConfigApSetSta env t w).1, .response)
  else (t, .response)

/-- The status of an interface, from its name and its password, where both have been read. -/
def status (env : Env) (read : List (List UInt8) × List (List UInt8)) : WifiConfigAp :=
  let w : WifiConfigAp := { ssid := List.replicate WifiConfigAp.kSsidSize 0
                            password := List.replicate WifiConfigAp.kPasswordSize 0 }
  match read.1.getLast?, read.2.getLast? with
  | some ssid, some password =>
    let w := { w with ssid := WifiConfigAp.field WifiConfigAp.kSsidSize ssid
                      password := WifiConfigAp.field WifiConfigAp.kPasswordSize password }
    if 0 < password.length then w.passwordIntoMd5Stringify env.md5 else w
  | _, _ => w

/-- The request is acknowledged, and answered. -/
def processCmdRequestMessageStatus (env : Env) (read : List (List UInt8) × List (List UInt8)) (t : Turn F)
    (c : CommandLong F) : Turn F × Microservice.Ret :=
  ((t.acknowledge Globals.getCompId c.command .accepted).respond Globals.getCompId (.wifiConfigAp (status env read)),
    .response)

def processCmdRequestMessageApStatus (env : Env) (t : Turn F) (c : CommandLong F) : Turn F × Microservice.Ret :=
  processCmdRequestMessageStatus env env.readAp t c

def processCmdRequestMessageStaStatus (env : Env) (t : Turn F) (c : CommandLong F) : Turn F × Microservice.Ret :=
  processCmdRequestMessageStatus env env.readSta t c

section
variable [SinglePrecision F]

/-- `RequestAp` is 0, `RequestSta` is 1. -/
def processCmdRequestMessage (env : Env) (t : Turn F) (c : CommandLong F) : Turn F × Microservice.Ret :=
  if SinglePrecision.toInt c.param1 = MsgId.wifiConfigAp then
    let wifiType := SinglePrecision.toInt c.param2
    if wifiType = 0 then processCmdRequestMessageApStatus env t c
    else if wifiType = 1 then processCmdRequestMessageStaStatus env t c
    else (t, .response)
  else (t, .ignored)

def process (env : Env) (uninitialized : UInt8) (m : Message F) : Turn F × Microservice.Ret :=
  let t : Turn F := { message := m }
  match m.body with
  | .wifiConfigAp w => processConfigAp env t w
  | body =>
    match body.command uninitialized with
    | none => (t, .ignored)
    | some c =>
      if c.isFor Globals.getCompId ∧ c.command = MavCmd.requestMessage then processCmdRequestMessage env t c
      else (t, .ignored)

end

/-! ## What is answered -/

theorem length_field (size : Nat) (bytes : List UInt8) : (WifiConfigAp.field size bytes).length = size := by
  rw [WifiConfigAp.field, List.length_take, List.length_append, List.length_replicate]
  omega

section
variable {env : Env} {t : Turn F} {w : WifiConfigAp}

theorem processConfigApSetSta_answers : Answers (processConfigApSetSta env t w).1 .response := by
  have hlength : 0 < (WifiConfigAp.field WifiConfigAp.kSsidSize w.ssid).length := by rw [length_field]; decide
  rw [processConfigApSetSta, if_pos hlength]
  exact answers_respond _ _ _

/-- WIFI_CONFIG_AP is answered in each of the three modes, and in no other. -/
theorem processConfigAp_answers (h : w.mode = kModeUndefined ∨ w.mode = kModeAp ∨ w.mode = kModeStation) :
    Answers (processConfigAp env t w).1 (processConfigAp env t w).2 := by
  unfold processConfigAp
  by_cases hundefined : w.mode = kModeUndefined
  · rw [if_pos hundefined]
    cases w.hasSsid <;> cases w.hasPassword <;> exact answers_respond _ _ _
  · rw [if_neg hundefined]
    by_cases hap : w.mode = kModeAp
    · rw [if_pos hap]
      exact answers_respond _ _ _
    · rw [if_neg hap]
      have hsta : w.mode = kModeStation := by
        rcases h with h | h | h
        · exact absurd h hundefined
        · exact absurd h hap
        · exact h
      rw [if_pos hsta]
      exact processConfigApSetSta_answers

theorem processConfigAp_silent (h : ¬ (w.mode = kModeUndefined ∨ w.mode = kModeAp ∨ w.mode = kModeStation)) :
    processConfigAp env t w = (t, .response) := by
  have hundefined : w.mode ≠ kModeUndefined := fun e => h (Or.inl e)
  have hap : w.mode ≠ kModeAp := fun e => h (Or.inr (Or.inl e))
  have hsta : w.mode ≠ kModeStation := fun e => h (Or.inr (Or.inr e))
  rw [processConfigAp, if_neg hundefined, if_neg hap, if_neg hsta]

end

section
variable [SinglePrecision F]

/-- The messages the microservice says it has answered, and has not: WIFI_CONFIG_AP in a
    mode that is none of the three, and the request of an interface that is neither. -/
def Silent (uninitialized : UInt8) (m : Message F) : Prop :=
  match m.body with
  | .wifiConfigAp w => ¬ (w.mode = kModeUndefined ∨ w.mode = kModeAp ∨ w.mode = kModeStation)
  | body => ∃ c, body.command uninitialized = some c ∧ c.isFor Globals.getCompId ∧ c.command = MavCmd.requestMessage ∧
      SinglePrecision.toInt c.param1 = MsgId.wifiConfigAp ∧
      SinglePrecision.toInt c.param2 ≠ 0 ∧ SinglePrecision.toInt c.param2 ≠ 1

theorem processCmdRequestMessage_lawful_iff (env : Env) (m : Message F) (c : CommandLong F) :
    Lawful m (processCmdRequestMessage env { message := m } c).1 (processCmdRequestMessage env { message := m } c).2 ↔
      ¬ (SinglePrecision.toInt c.param1 = MsgId.wifiConfigAp ∧
        SinglePrecision.toInt c.param2 ≠ 0 ∧ SinglePrecision.toInt c.param2 ≠ 1) := by
  unfold processCmdRequestMessage
  by_cases hmsgid : SinglePrecision.toInt c.param1 = MsgId.wifiConfigAp
  · rw [if_pos hmsgid]
    simp only [hmsgid, true_and]
    by_cases hap : SinglePrecision.toInt c.param2 = 0
    · simp only [hap, ↓reduceIte, ne_eq, not_true_eq_false, false_and, not_false_eq_true, iff_true]
      exact (answers_respond _ _ _).lawful
    · by_cases hsta : SinglePrecision.toInt c.param2 = 1
      · simp only [hsta, Int.one_ne_zero, ↓reduceIte, ne_eq, not_true_eq_false, and_false, not_false_eq_true, iff_true]
        exact (answers_respond _ _ _).lawful
      · simp only [hap, hsta, ↓reduceIte, ne_eq, not_false_eq_true, and_self, not_true_eq_false, iff_false]
        exact not_lawful_of_no_response rfl
  · simp only [hmsgid, ↓reduceIte, false_and, not_false_eq_true, iff_true]
    exact lawful_ignored m

/-- The microservice keeps to the contract but for the messages it is silent about. -/
theorem process_lawful_iff (env : Env) (uninitialized : UInt8) (m : Message F) :
    Lawful m (process env uninitialized m).1 (process env uninitialized m).2 ↔ ¬ Silent uninitialized m := by
  unfold process Silent
  split
  · rename_i w hbody
    by_cases hmode : w.mode = kModeUndefined ∨ w.mode = kModeAp ∨ w.mode = kModeStation
    · simp only [hmode, not_true_eq_false, not_false_eq_true, iff_true]
      exact processConfigAp_answers hmode |>.lawful
    · simp only [hmode, not_false_eq_true, not_true_eq_false, iff_false, processConfigAp_silent hmode]
      exact not_lawful_of_no_response rfl
  · cases hc : m.body.command uninitialized with
    | none =>
      simp only [reduceCtorEq, false_and, exists_false, not_false_eq_true, iff_true]
      exact lawful_ignored m
    | some c =>
      simp only [Option.some.injEq, exists_eq_left']
      by_cases hfor : c.isFor Globals.getCompId ∧ c.command = MavCmd.requestMessage
      · rw [if_pos hfor, processCmdRequestMessage_lawful_iff]
        simp only [hfor.1, hfor.2, true_and]
      · rw [if_neg hfor]
        have hnot : ¬ (c.isFor Globals.getCompId = true ∧ c.command = MavCmd.requestMessage ∧
            SinglePrecision.toInt c.param1 = MsgId.wifiConfigAp ∧
            SinglePrecision.toInt c.param2 ≠ 0 ∧ SinglePrecision.toInt c.param2 ≠ 1) := by
          intro h
          exact hfor ⟨h.1, h.2.1⟩
        simp only [hnot, not_false_eq_true, iff_true]
        exact lawful_ignored m

end

end Esp32Cam.Mav.Wifi
