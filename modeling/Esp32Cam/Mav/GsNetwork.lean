/-
  Esp32Cam.Mav.GsNetwork — the service that gives the autopilot its sockets.

  A MAV_GS_NETWORK request names a command, a transport, an address (in front of the
  payload) and two ports. The command is carried out on the sockets of `Sock::Api`, and
  the request is sent back as the answer, with the acknowledgement in it. Opening and
  closing a port also adds and removes the rule by which what is received on the port is
  packed and forwarded.
-/

import Esp32Cam.Sock.Api
import Esp32Cam.Bdg.RoutingRules
import Esp32Cam.Mav.FileTransferProtocol

namespace Esp32Cam.Mav.GsNetwork

open Esp32Cam.Asio (Address Endpoint)
open Esp32Cam.Sock (Api Os Error)
open Esp32Cam.Bdg (RoutingRules EndpointVariant NamedEndpoint)

inductive Command where
  | connect
  | disconnect
  | send
  | open_
  | close
  | processReceived
  | other (value : UInt8)
  deriving DecidableEq, Repr

inductive Ack where
  | none
  | noneHoldResponse
  | success
  | fail
  | other (value : UInt8)
  deriving DecidableEq, Repr

inductive Transport where
  | tcp4
  | tcp6
  | udp4
  | udp6
  | other (value : UInt8)
  deriving DecidableEq, Repr

def Transport.isTcp : Transport → Bool
  | .tcp4 | .tcp6 => true
  | _ => false

def Transport.isUdp : Transport → Bool
  | .udp4 | .udp6 => true
  | _ => false

/-- `mavlink_mav_gs_network_t`. Bytes of the payload that have not been received are 0. -/
structure Message where
  hostPort : UInt16
  remotePort : UInt16
  command : Command
  ack : Ack := .none
  transport : Transport
  payloadLen : UInt8 := 0
  payload : List UInt8 := []
  deriving DecidableEq

def Message.byte (m : Message) (i : Nat) : UInt8 := m.payload.getD i 0

def getAddress (m : Message) : Address :=
  match m.transport with
  | .tcp4 | .udp4 => .v4 (Vector.ofFn fun i => m.byte i)
  | .tcp6 | .udp6 => .v6 (Vector.ofFn fun i => m.byte i) 0
  | .other _ => .v4 (Vector.replicate 4 0)

def Message.remote (m : Message) : Endpoint := ⟨getAddress m, m.remotePort⟩

/-- The two stores the commands work on. -/
structure State where
  api : Api
  rules : RoutingRules

def ackOf (err : Option Error) : Ack := if err.isSome then .fail else .success

/-- A request behind its command, with what a send has come to. -/
structure Done where
  state : State
  message : Message
  taken : Option (Nat × Nat) := none

def processConnect (s : State) (os : Os) (m : Message) : Option Done :=
  let called : Option (Api × UInt16 × Option Error) :=
    match m.transport with
    | .tcp4 | .tcp6 => s.api.connect os m.remote m.hostPort
    | _ => some (s.api, m.hostPort, none)
  called.map fun (api, hostPort, err) =>
    let ack := if err = some .alreadyConnected ∨ err = none then .success else .fail
    { state := { s with api }, message := { m with hostPort, ack } }

def processDisconnect (s : State) (os : Os) (m : Message) : Option Done :=
  (s.api.disconnect os m.remote m.hostPort).map fun (api, err) =>
    let ack := if err = some .notConnected then .success else ackOf err
    { state := { s with api }, message := { m with ack } }

/-- The rule for what is received on the port. -/
def origin (m : Message) : EndpointVariant := if m.transport.isTcp then .tcpPort m.hostPort else .udpPort m.hostPort

def processOpen (s : State) (os : Os) (m : Message) : Option Done :=
  let called : Option (Api × Option Error) :=
    match m.transport with
    | .tcp4 | .tcp6 => s.api.openTcp os m.hostPort
    | .udp4 | .udp6 => s.api.openUdp os m.hostPort
    | .other _ => some (s.api, none)
  called.map fun (api, errorCode) =>
    let ack := if errorCode = some .alreadyOpen then .success else ackOf errorCode
    let rules :=
      if ack = .success then
        (s.rules.addStatic (origin m) (.named .mavlinkIpPack) (.named .mavlinkIpPackForwarded)).1
      else s.rules
    { state := { api, rules }, message := { m with ack } }

def processClose (closeCliDisconnect : Bool) (s : State) (os : Os) (m : Message) : Option Done :=
  let called : Option (Api × Option Error) :=
    match m.transport with
    | .tcp4 | .tcp6 => s.api.closeTcp closeCliDisconnect os m.hostPort
    | .udp4 | .udp6 => s.api.closeUdp os m.hostPort
    | .other _ => some (s.api, none)
  called.map fun (api, errorCode) =>
    let ack := if errorCode = some .notFound then .success else ackOf errorCode
    let rules :=
      if ack = .success then s.rules.remove (origin m) (.named .mavlinkIpPack) else s.rules
    { state := { api, rules }, message := { m with ack } }

/-- What is sent is the payload behind the address: its offset, and its length as a `size_t`. -/
def getBuffer (m : Message) : Nat × Nat :=
  let behind (n : Nat) : Nat × Nat := (n, (2 ^ 32 + m.payloadLen.toNat - n) % 2 ^ 32)
  match m.transport with
  | .tcp4 | .udp4 => behind 4
  | .tcp6 | .udp6 => behind 16
  | .other _ => (0, 0)

def processSend (s : State) (os : Os) (m : Message) : Option Done :=
  let called : Option (Api × Sock.Api.Sent) :=
    match m.transport with
    | .tcp4 | .tcp6 => (s.api.sendToTcp os m.remote m.hostPort none).map (s.api, ·)
    | .udp4 | .udp6 => s.api.sendToUdp os m.hostPort
    | .other _ => some (s.api, ⟨m.hostPort, none, none⟩)
  called.map fun (api, sent) =>
    { state := { s with api }, message := { m with hostPort := sent.aLocalPort, ack := ackOf sent.aErr },
      taken := sent.taken }

def carryOut (closeCliDisconnect : Bool) (s : State) (os : Os) (m : Message) : Option (Option Done) :=
  match m.command with
  | .connect => (processConnect s os m).map some
  | .disconnect => (processDisconnect s os m).map some
  | .send => (processSend s os m).map some
  | .open_ => (processOpen s os m).map some
  | .close => (processClose closeCliDisconnect s os m).map some
  | .processReceived => some (some { state := s, message := m })
  | .other _ => some none

/-- What the service makes of a message: the state, and the answer where there is one. -/
def process (closeCliDisconnect : Bool) (s : State) (os : Os) (m : Message) :
    Option (Microservice.Ret × Option Done) :=
  let answer (ret : Microservice.Ret) : Option (Microservice.Ret × Option Done) :=
    (carryOut closeCliDisconnect s os m).map fun
      | some done => (ret, some done)
      | none => (.ignored, none)
  match m.ack with
  | .none => answer .response
  | .noneHoldResponse => answer .noResponse
  | _ => some (.noResponse, none)

/-! ## What each command can do -/

section
variable {cfg : Bool} {s : State} {os : Os} {m : Message} {d : Done}

def connectAck (err : Option Error) : Ack := if err = some .alreadyConnected ∨ err = none then .success else .fail

theorem processConnect_cases (h : processConnect s os m = some d) :
    (m.transport.isTcp = true ∧ ∃ api hostPort err, s.api.connect os m.remote m.hostPort = some (api, hostPort, err) ∧
      d = { state := { s with api := api },
            message := { m with hostPort := hostPort, ack := connectAck err } }) ∨
    (m.transport.isTcp = false ∧ d = { state := s, message := { m with ack := .success } }) := by
  unfold processConnect at h
  cases ht : m.transport <;> rw [ht] at h <;> dsimp only at h
  all_goals
    obtain ⟨⟨api, hostPort, err⟩, hcall, rfl⟩ := Option.map_eq_some_iff.mp h
    first
    | exact Or.inl ⟨rfl, api, hostPort, err, hcall, rfl⟩
    | obtain ⟨rfl, rfl, rfl⟩ := by simpa only [Option.some_inj, Prod.mk.injEq] using hcall
      exact Or.inr ⟨rfl, rfl⟩

def disconnectAck (err : Option Error) : Ack := if err = some .notConnected then .success else ackOf err

theorem processDisconnect_cases (h : processDisconnect s os m = some d) :
    ∃ api err, s.api.disconnect os m.remote m.hostPort = some (api, err) ∧
      d = { state := { s with api := api }, message := { m with ack := disconnectAck err } } := by
  obtain ⟨⟨api, err⟩, hcall, rfl⟩ := Option.map_eq_some_iff.mp h
  exact ⟨api, err, hcall, rfl⟩

def openRules (s : State) (m : Message) (ack : Ack) : RoutingRules :=
  if ack = .success then (s.rules.addStatic (origin m) (.named .mavlinkIpPack) (.named .mavlinkIpPackForwarded)).1
  else s.rules

def openAck (errorCode : Option Error) : Ack := if errorCode = some .alreadyOpen then .success else ackOf errorCode

@[simp] theorem openAck_none : openAck none = .success := rfl
@[simp] theorem openAck_system (e : Sock.SysError) : openAck (some (.system e)) = .fail := rfl

/-- A call goes by TCP, by UDP, or, on any other transport, nowhere. -/
theorem transport_cases {α : Type} {t : Transport} {tcp udp : Option α} {other x : α}
    (h : (match t with
      | .tcp4 | .tcp6 => tcp
      | .udp4 | .udp6 => udp
      | .other _ => some other) = some x) :
    (t.isTcp = true ∧ tcp = some x) ∨ (t.isUdp = true ∧ udp = some x) ∨
      (t.isTcp = false ∧ t.isUdp = false ∧ other = x) := by
  cases t with
  | tcp4 | tcp6 => exact Or.inl ⟨rfl, h⟩
  | udp4 | udp6 => exact Or.inr (Or.inl ⟨rfl, h⟩)
  | other value => exact Or.inr (Or.inr ⟨rfl, rfl, Option.some_inj.mp h⟩)

theorem processOpen_cases (h : processOpen s os m = some d) :
    ∃ api errorCode, d = { state := ⟨api, openRules s m (openAck errorCode)⟩
                           message := { m with ack := openAck errorCode } } ∧
    ((m.transport.isTcp = true ∧ s.api.openTcp os m.hostPort = some (api, errorCode)) ∨
      (m.transport.isUdp = true ∧ s.api.openUdp os m.hostPort = some (api, errorCode)) ∨
      (m.transport.isTcp = false ∧ m.transport.isUdp = false ∧ api = s.api ∧ errorCode = none)) := by
  obtain ⟨⟨api, errorCode⟩, hcall, rfl⟩ := Option.map_eq_some_iff.mp h
  refine ⟨api, errorCode, rfl, ?_⟩
  rcases transport_cases hcall with ⟨ht, hopen⟩ | ⟨ht, hopen⟩ | ⟨htcp, hudp, hr⟩
  · exact Or.inl ⟨ht, hopen⟩
  · exact Or.inr (Or.inl ⟨ht, hopen⟩)
  · obtain ⟨rfl, rfl⟩ := Prod.mk.inj hr
    exact Or.inr (Or.inr ⟨htcp, hudp, rfl, rfl⟩)

def closeRules (s : State) (m : Message) (ack : Ack) : RoutingRules :=
  if ack = .success then s.rules.remove (origin m) (.named .mavlinkIpPack) else s.rules

def closeAck (errorCode : Option Error) : Ack := if errorCode = some .notFound then .success else ackOf errorCode

@[simp] theorem closeAck_none : closeAck none = .success := rfl
@[simp] theorem closeAck_system (e : Sock.SysError) : closeAck (some (.system e)) = .fail := rfl

theorem processClose_cases (h : processClose cfg s os m = some d) :
    ∃ api errorCode, d = { state := ⟨api, closeRules s m (closeAck errorCode)⟩
                           message := { m with ack := closeAck errorCode } } ∧
    ((m.transport.isTcp = true ∧ s.api.closeTcp cfg os m.hostPort = some (api, errorCode)) ∨
      (m.transport.isUdp = true ∧ s.api.closeUdp os m.hostPort = some (api, errorCode)) ∨
      (m.transport.isTcp = false ∧ m.transport.isUdp = false ∧ api = s.api ∧ errorCode = none)) := by
  obtain ⟨⟨api, errorCode⟩, hcall, rfl⟩ := Option.map_eq_some_iff.mp h
  refine ⟨api, errorCode, rfl, ?_⟩
  rcases transport_cases hcall with ⟨ht, hclose⟩ | ⟨ht, hclose⟩ | ⟨htcp, hudp, hr⟩
  · exact Or.inl ⟨ht, hclose⟩
  · exact Or.inr (Or.inl ⟨ht, hclose⟩)
  · obtain ⟨rfl, rfl⟩ := Prod.mk.inj hr
    exact Or.inr (Or.inr ⟨htcp, hudp, rfl, rfl⟩)

theorem processSend_cases (h : processSend s os m = some d) :
    ∃ api sent, d = { state := { s with api := api },
                      message := { m with hostPort := sent.aLocalPort, ack := ackOf sent.aErr },
                      taken := sent.taken } ∧
    ((m.transport.isTcp = true ∧ api = s.api ∧ s.api.sendToTcp os m.remote m.hostPort none = some sent) ∨
      (m.transport.isUdp = true ∧ s.api.sendToUdp os m.hostPort = some (api, sent)) ∨
      (m.transport.isTcp = false ∧ m.transport.isUdp = false ∧ api = s.api ∧ sent = ⟨m.hostPort, none, none⟩)) := by
  obtain ⟨⟨api, sent⟩, hcall, rfl⟩ := Option.map_eq_some_iff.mp h
  refine ⟨api, sent, rfl, ?_⟩
  rcases transport_cases hcall with ⟨ht, hsend⟩ | ⟨ht, hsend⟩ | ⟨htcp, hudp, hr⟩
  · obtain ⟨sent', hsend', heq⟩ := Option.map_eq_some_iff.mp hsend
    obtain ⟨rfl, rfl⟩ := Prod.mk.inj heq
    exact Or.inl ⟨ht, rfl, hsend'⟩
  · exact Or.inr (Or.inl ⟨ht, hsend⟩)
  · obtain ⟨rfl, rfl⟩ := Prod.mk.inj hr
    exact Or.inr (Or.inr ⟨htcp, hudp, rfl, rfl⟩)

def Message.isRequest (m : Message) : Bool := m.ack == .none || m.ack == .noneHoldResponse

/-- Only a request is carried out; an answer carries the request's acknowledgement. -/
theorem process_cases {ret : Microservice.Ret} {answer : Option Done} (h : process cfg s os m = some (ret, answer)) :
    (m.isRequest = false ∧ answer = none) ∨ (m.isRequest = true ∧ carryOut cfg s os m = some answer) := by
  unfold process at h
  cases hack : m.ack <;> rw [hack] at h <;> simp only [Message.isRequest, hack]
  all_goals
    first
    | obtain ⟨o, hcarry, heq⟩ := Option.map_eq_some_iff.mp h
      refine Or.inr ⟨rfl, ?_⟩
      rw [hcarry]
      cases o with
      | none => exact congrArg some (Prod.mk.inj heq).2
      | some done => exact congrArg some (Prod.mk.inj heq).2
    | obtain ⟨-, rfl⟩ := Prod.mk.inj (Option.some_inj.mp h)
      exact Or.inl ⟨rfl, rfl⟩

end

end Esp32Cam.Mav.GsNetwork
