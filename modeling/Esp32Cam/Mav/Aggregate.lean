/-
  Esp32Cam.Mav.Aggregate — the microservices of the dispatcher, one after the other.

  A message goes from one microservice to the next until one of them does not ignore it.
  They share the buffer: what one leaves in it is what the next one is handed.

  `contract_iff`: a microservice keeps to the contract (`Turn.Lawful`) on every message
  but those of `Offends`. The Wi-Fi microservice says it has answered a mode or an
  interface it does not know; the tracker's acknowledges the interval of any message, and
  leaves those of the others to them, who are handed the acknowledgement
  (`two_microservices_break_the_contract`). `process_hands_over`: a message none of
  them offends on is the one each of them is handed.
-/

import Esp32Cam.Mav.ApVer
import Esp32Cam.Mav.Camera
import Esp32Cam.Mav.FetchOutcome
import Esp32Cam.Mav.FtpAnswers
import Esp32Cam.Mav.Tracking
import Esp32Cam.Mav.Wifi

namespace Esp32Cam.Mav

open Turn

variable {F : Type}

/-! ## The microservices that keep a state of their own kind -/

/-- The message as the file transfer client sees it. -/
def Message.toMavlink (m : Message F) : MavlinkMessage :=
  match m.body with
  | .fileTransferProtocol f => .fileTransferProtocol f
  | .other msgid => .other msgid
  | _ => .other 0

def Message.ofMavlink : MavlinkMessage → Message F
  | .fileTransferProtocol f => .pack Globals.getCompId (.fileTransferProtocol f)
  | .other msgid => .pack Globals.getCompId (.other msgid)

/-- What the client has sent is what the callback has been called with, and is left in the buffer. -/
def BftFtpClient.turn (c : BftFtpClient) (m : Message F) : BftFtpClient × Turn F × Microservice.Ret :=
  let (c', ret) := c.process m.toMavlink
  let responses := (c'.sent.drop c.sent.length).map Message.ofMavlink
  (c', { message := responses.getLast?.getD m, responses,
         commands := (c'.updates.drop c.updates.length).map .transferUpdate }, ret)

def GsNetwork.turn (closeCliDisconnect : Bool) (s : State) (os : Sock.Os) (m : Mav.Message F) :
    Option (State × Turn F × Microservice.Ret) :=
  match m.body with
  | .mavGsNetwork request =>
    (process closeCliDisconnect s os request).map fun
      | (ret, some done) =>
        (done.state, { Turn.respond { message := m } Globals.getCompId (.mavGsNetwork done.message) with
          commands := [.sockets request] }, ret)
      | (ret, none) => (s, { message := m }, ret)
  | _ => some (s, { message := m }, .ignored)

def BufferedFileTransfer.turn [SinglePrecision F] (s : State) (env : Env) (m : Message F) :
    Option (State × Turn F × Microservice.Ret) :=
  (process s env m).map fun (f, ret) =>
    (f.state, { message := f.message, responses := f.responses,
                commands := f.requested.map .httpGet ++ f.notified.map fun _ => .fileBufferingFinished }, ret)

namespace BftFtpClient

/-- The microservice says what it does: nothing is sent when it ignores the message, and
    something is when it has answered. -/
structure Says (c c' : BftFtpClient) (ret : Microservice.Ret) : Prop where
  ignored : ret = .ignored → c'.sent = c.sent ∧ c'.updates = c.updates
  response : ret = .response → ∃ w, c'.sent = c.sent ++ [w]

variable {c c' : BftFtpClient}

theorem says_ignored (hsent : c'.sent = c.sent) (hupdates : c'.updates = c.updates) : Says c c' .ignored where
  ignored _ := ⟨hsent, hupdates⟩
  response h := by cases h

theorem says_noResponse : Says c c' .noResponse where
  ignored h := by cases h
  response h := by cases h

theorem says_response {w : MavlinkMessage} (hsent : c'.sent = c.sent ++ [w]) : Says c c' .response where
  ignored h := by cases h
  response _ := ⟨w, hsent⟩

theorem creatingSession_says (c : BftFtpClient) (m : FileTransferProtocol) :
    Says c (c.processMavlinkMessageCreatingSession m).1 (c.processMavlinkMessageCreatingSession m).2 := by
  unfold processMavlinkMessageCreatingSession
  split
  · dsimp only
    split
    · exact says_response (sessionGranted_sent c m)
    · split
      · exact says_noResponse
      · exact says_noResponse
  · exact says_noResponse

theorem transferring_says (c : BftFtpClient) (m : FileTransferProtocol) :
    Says c (c.processMavlinkMessageTransferring m).1 (c.processMavlinkMessageTransferring m).2 := by
  unfold processMavlinkMessageTransferring
  split
  · dsimp only
    split
    · split
      · exact says_ignored rfl rfl
      · exact says_response (writeAcknowledged_sent c m)
    · split
      · exact says_response (writeRefused_sent c m)
      · exact says_ignored rfl rfl
  · exact says_ignored rfl rfl

theorem closingSession_says (c : BftFtpClient) (m : FileTransferProtocol) :
    Says c (c.processMavlinkMessageClosingSession m).1 (c.processMavlinkMessageClosingSession m).2 := by
  unfold processMavlinkMessageClosingSession
  split
  · dsimp only
    split
    · exact says_noResponse
    · split
      · exact says_noResponse
      · exact says_ignored rfl rfl
  · exact says_ignored rfl rfl

theorem process_says (c : BftFtpClient) (m : MavlinkMessage) : Says c (c.process m).1 (c.process m).2 := by
  cases m with
  | other msgid => exact says_ignored rfl rfl
  | fileTransferProtocol m =>
    unfold process
    dsimp only
    split
    · exact says_ignored rfl rfl
    · split
      · exact says_ignored rfl rfl
      · exact creatingSession_says c m
      · exact transferring_says c m
      · exact closingSession_says c m
      · exact says_ignored rfl rfl

theorem turn_lawful (c : BftFtpClient) (m : Message F) : Lawful m (c.turn m).2.1 (c.turn m).2.2 := by
  have hsays := process_says c m.toMavlink
  refine ⟨?_, ?_⟩
  · intro hret
    obtain ⟨hsent, hupdates⟩ := hsays.ignored hret
    simp only [turn, hsent, hupdates, List.drop_length, List.map_nil, List.getLast?_nil, Option.getD_none, and_self]
  · intro hret
    obtain ⟨w, hsent⟩ := hsays.response hret
    simp only [turn, hsent, List.drop_left, List.map_cons, List.map_nil, ne_eq, List.cons_ne_nil, not_false_eq_true]

end BftFtpClient

theorem GsNetwork.answer_says {ret ret' : Microservice.Ret} {done : Option Done} {carried : Option (Option Done)}
    (hret : ret ≠ .ignored)
    (h : (carried.map fun
      | some done => (ret, some done)
      | none => (.ignored, none)) = some (ret', done)) :
    ret' ≠ if done.isSome then .ignored else .response := by
  obtain ⟨d, -, hd⟩ := Option.map_eq_some_iff.mp h
  cases d with
  | none =>
    cases hd
    decide
  | some d =>
    cases hd
    exact hret

/-- A request has an answer behind its command, and is ignored where the command is none of the service's. -/
theorem GsNetwork.process_says {closeCliDisconnect : Bool} {s : State} {os : Sock.Os} {m : Message}
    {ret : Microservice.Ret} {done : Option Done} (h : process closeCliDisconnect s os m = some (ret, done)) :
    ret ≠ if done.isSome then .ignored else .response := by
  unfold process at h
  dsimp only at h
  split at h
  · exact answer_says (by decide) h
  · exact answer_says (by decide) h
  · cases h
    decide

theorem GsNetwork.turn_lawful {closeCliDisconnect : Bool} {s s' : State} {os : Sock.Os} {m : Mav.Message F} {t : Turn F}
    {ret : Microservice.Ret} (h : turn closeCliDisconnect s os m = some (s', t, ret)) : Lawful m t ret := by
  unfold turn at h
  split at h
  · obtain ⟨⟨ret', done⟩, hproc, hdone⟩ := Option.map_eq_some_iff.mp h
    have hsays := process_says hproc
    cases done with
    | none =>
      cases hdone
      exact ⟨fun _ => ⟨rfl, rfl, rfl⟩, fun hresponse => absurd hresponse hsays⟩
    | some done =>
      cases hdone
      exact ⟨fun hignored => absurd hignored hsays, fun _ => (answers_respond _ _ _).2⟩
  · cases h
    exact lawful_ignored m

section
variable [SinglePrecision F]

theorem BufferedFileTransfer.turn_lawful {s s' : State} {env : Env} {m : Message F} {t : Turn F} {ret : Microservice.Ret}
    (h : turn s env m = some (s', t, ret)) : Lawful m t ret := by
  obtain ⟨⟨f, ret'⟩, hproc, hf⟩ := Option.map_eq_some_iff.mp h
  cases hf
  unfold process at hproc
  split at hproc
  · split at hproc
    · split at hproc
      · obtain ⟨f', hcommand, hf'⟩ := Option.map_eq_some_iff.mp hproc
        cases hf'
        have hresponses : f.responses ≠ [] := by
          rw [onCommand_responses hcommand]
          exact List.cons_ne_nil _ _
        exact Answers.lawful ⟨rfl, hresponses⟩
      · cases hproc
        exact lawful_ignored m
    · cases hproc
      exact lawful_ignored m
  · cases hproc
    exact lawful_ignored m

/-! ## The aggregate -/

inductive Mic where
  | wifi | gsNetwork | camera | apVer | tracking | bftFtpClient | bufferedFileTransfer
  deriving DecidableEq, Repr

def Mic.microservices : List Mic := [.wifi, .gsNetwork, .camera, .apVer, .tracking, .bftFtpClient, .bufferedFileTransfer]

structure Mic.State where
  gsNetwork : GsNetwork.State
  camera : Camera.History := {}
  apVer : ApVer.State := {}
  tracking : Tracking.State := {}
  bftFtpClient : BftFtpClient
  bufferedFileTransfer : BufferedFileTransfer.State

structure Mic.Env where
  wifi : Wifi.Env
  closeCliDisconnect : Bool := true
  os : Sock.Os := {}
  camera : Camera.Env := {}
  tracking : Tracking.Env := {}
  bufferedFileTransfer : BufferedFileTransfer.Env := {}
  /-- The `confirmation` of a COMMAND_INT. -/
  uninitialized : UInt8 := 0

namespace Mic

def process (s : State) (env : Env) (m : Message F) : Mic → Option (State × Turn F × Microservice.Ret)
  | .wifi => some (s, Wifi.process env.wifi env.uninitialized m)
  | .gsNetwork => (GsNetwork.turn env.closeCliDisconnect s.gsNetwork env.os m).map fun (s', r) =>
      ({ s with gsNetwork := s' }, r)
  | .camera =>
      let (s', r) := Camera.process s.camera env.camera env.uninitialized m
      some ({ s with camera := s' }, r)
  | .apVer =>
      let (s', r) := ApVer.process s.apVer m
      some ({ s with apVer := s' }, r)
  | .tracking => (Tracking.process s.tracking env.tracking env.uninitialized m).map fun (s', r) =>
      ({ s with tracking := s' }, r)
  | .bftFtpClient =>
      let (s', r) := s.bftFtpClient.turn m
      some ({ s with bftFtpClient := s' }, r)
  | .bufferedFileTransfer => (BufferedFileTransfer.turn s.bufferedFileTransfer env.bufferedFileTransfer m).map fun (s', r) =>
      ({ s with bufferedFileTransfer := s' }, r)

/-- The messages a microservice does not keep to the contract on. -/
def Offends (uninitialized : UInt8) (m : Message F) : Mic → Prop
  | .wifi => Wifi.Silent uninitialized m
  | .tracking => Tracking.AnswersAnothers uninitialized m
  | _ => False

/-- A microservice keeps to the contract exactly on the messages it does not offend on. -/
theorem contract_iff (mic : Mic) (s : State) (env : Env) (m : Message F) {r : State × Turn F × Microservice.Ret}
    (h : mic.process s env m = some r) : r.2.1.Lawful m r.2.2 ↔ ¬ mic.Offends env.uninitialized m := by
  cases mic with
  | wifi =>
    obtain rfl := Option.some_inj.mp h
    exact Wifi.process_lawful_iff env.wifi env.uninitialized m
  | gsNetwork =>
    obtain ⟨⟨s₁, t, ret⟩, hturn, rfl⟩ := Option.map_eq_some_iff.mp h
    exact iff_of_true (GsNetwork.turn_lawful hturn) not_false
  | camera =>
    obtain rfl := Option.some_inj.mp h
    exact iff_of_true (Camera.process_lawful s.camera env.camera env.uninitialized m) not_false
  | apVer =>
    obtain rfl := Option.some_inj.mp h
    exact iff_of_true (ApVer.process_lawful s.apVer m) not_false
  | tracking =>
    obtain ⟨⟨s₁, t, ret⟩, hprocess, rfl⟩ := Option.map_eq_some_iff.mp h
    exact Tracking.process_lawful_iff hprocess
  | bftFtpClient =>
    obtain rfl := Option.some_inj.mp h
    exact iff_of_true (BftFtpClient.turn_lawful s.bftFtpClient m) not_false
  | bufferedFileTransfer =>
    obtain ⟨⟨s₁, t, ret⟩, hturn, rfl⟩ := Option.map_eq_some_iff.mp h
    exact iff_of_true (BufferedFileTransfer.turn_lawful hturn) not_false

def started : State where
  gsNetwork := ⟨{}, {}⟩
  bftFtpClient := .init .init 0 0 0
  bufferedFileTransfer := .init .init

def alone : Env where
  wifi := { staPassword := [], staStringIdentifier := [], staInitialized := [], apStringIdentifier := [], apPassword := [],
            readSta := ([], []), readAp := ([], []), connected := false, md5 := fun _ => Vector.replicate 16 0 }

/-- WIFI_CONFIG_AP in a mode, for the network `a`. -/
def wifiConfigAp (mode : UInt8) : Message Int :=
  ⟨255, 190, .wifiConfigAp { ssid := 0x61 :: List.replicate 31 0, password := List.replicate 64 0, mode }⟩

/-- The tracker is asked for the interval of a message. -/
def setMessageInterval (msgid : Int) : Message Int :=
  ⟨255, 190, .commandLong
    { targetSystem := 1, targetComponent := 101, command := MavCmd.setMessageInterval, confirmation := 0, param1 := msgid,
      param2 := 0, param3 := 0, param4 := 0, param5 := 0, param6 := 0, param7 := 0 }⟩

theorem contract_of_the_station : (Wifi.process alone.wifi 0 (wifiConfigAp 2)).1.Lawful (wifiConfigAp 2) .response :=
  (contract_iff .wifi started alone (wifiConfigAp 2) rfl).mpr (fun h => h (Or.inr (Or.inr rfl)))

/-- The interval of ATTITUDE is acknowledged in the buffer the others are handed, and a
    mode there is none of is answered with nothing. -/
theorem two_microservices_break_the_contract :
    (∃ r, Mic.tracking.process started alone (setMessageInterval 30) = some r ∧ r.2.2 = .ignored ∧
      r.2.1.message ≠ setMessageInterval 30 ∧ r.2.1.responses = [r.2.1.message] ∧
      ¬ r.2.1.Lawful (setMessageInterval 30) r.2.2) ∧
    (∃ r, Mic.wifi.process started alone (wifiConfigAp 3) = some r ∧ r.2.2 = .response ∧ r.2.1.responses = [] ∧
      ¬ r.2.1.Lawful (wifiConfigAp 3) r.2.2) :=
  ⟨⟨_, rfl, rfl, by decide, rfl, not_lawful_of_ignored (by decide)⟩, ⟨_, rfl, rfl, rfl, not_lawful_of_no_response rfl⟩⟩

/-! ## One after the other -/

/-- What a microservice has done with the message another one has left. -/
def andThen (t t' : Turn F) : Turn F :=
  { message := t'.message, responses := t.responses ++ t'.responses, commands := t.commands ++ t'.commands }

/-- The microservices are asked until one does not ignore what is in the buffer. -/
def processAll (s : State) (env : Env) (t : Turn F) : List Mic → Option (State × Turn F × Microservice.Ret)
  | [] => some (s, t, .ignored)
  | mic :: mics => (mic.process s env t.message).bind fun (s, t', ret) =>
    if ret ≠ .ignored then some (s, andThen t t', ret) else processAll s env (andThen t t') mics

/-- Whatever its state, the microservice keeps to the contract on the message. -/
def Keeps (env : Env) (m : Message F) (mic : Mic) : Prop :=
  ∀ s r, mic.process s env m = some r → r.2.1.Lawful m r.2.2

/-- Where all keep to the contract, the turn is that of one microservice on the message
    itself, or nobody has done anything. -/
theorem processAll_eq {env : Env} {m : Message F} {mics : List Mic} (hmics : ∀ mic ∈ mics, mic.Keeps env m)
    {s : State} {r : State × Turn F × Microservice.Ret} (h : processAll s env { message := m } mics = some r) :
    r.2 = ({ message := m }, .ignored) ∨ ∃ mic ∈ mics, ∃ s₁, mic.process s₁ env m = some r ∧ r.2.2 ≠ .ignored := by
  induction mics generalizing s with
  | nil =>
    obtain rfl := Option.some_inj.mp h
    exact Or.inl rfl
  | cons mic mics ih =>
    obtain ⟨⟨s', t', ret⟩, hmic, hrest⟩ := Option.bind_eq_some_iff.mp h
    have hlawful : t'.Lawful m ret := hmics mic List.mem_cons_self s _ hmic
    dsimp only at hrest
    by_cases hret : ret = .ignored
    · obtain ⟨hmessage, hresponses, hcommands⟩ := hlawful.ignored hret
      have hturn : andThen ({ message := m } : Turn F) t' = { message := m } := by
        simp only [andThen, hmessage, hresponses, hcommands, List.append_nil]
      rw [if_neg (fun hne => hne hret), hturn] at hrest
      rcases ih (fun mic hmem => hmics mic (List.mem_cons_of_mem _ hmem)) hrest with hnobody | ⟨mic', hmem, hturn'⟩
      · exact Or.inl hnobody
      · exact Or.inr ⟨mic', List.mem_cons_of_mem _ hmem, hturn'⟩
    · rw [if_pos hret] at hrest
      obtain rfl := Option.some_inj.mp hrest
      exact Or.inr ⟨mic, List.mem_cons_self, s, hmic, hret⟩

/-- The dispatcher has an answer where it is told of one, and the message as it was where it forwards it. -/
theorem processAll_lawful {env : Env} {m : Message F} {mics : List Mic} (hmics : ∀ mic ∈ mics, mic.Keeps env m)
    {s : State} {r : State × Turn F × Microservice.Ret} (h : processAll s env { message := m } mics = some r) :
    r.2.1.Lawful m r.2.2 := by
  rcases processAll_eq hmics h with hnobody | ⟨mic, hmem, s₁, hmic, -⟩
  · rw [hnobody]
    exact lawful_ignored m
  · exact hmics mic hmem s₁ r hmic

end Mic

end

end Esp32Cam.Mav
