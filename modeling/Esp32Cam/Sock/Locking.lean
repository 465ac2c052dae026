/-
  Esp32Cam.Sock.Locking — the calls and the handlers of `Sock.Api` with the mutex they take.

  Every public operation takes `syncAsyncMutex` for the whole of its work, which is the
  one `Esp32Cam.Sock.Api` describes. The completion handlers are run by
  `ioContext.poll()`, which does not hold it; some take it, and some call an operation
  for its cleanup. A datagram or bytes received are handed to the receivers, on the same
  thread, and a receiver may call any operations.

  As the code has it:
  - the handlers of the two reads leave the mutex to `closeUdp` and `disconnect`
    (`onUdpReceiveError`, `onTcpReceiveError`);
  - the handler of an accept that has failed takes it, and then calls `closeTcp`, which
    takes it as well (`onAcceptError`).

  - `poll_deadlocked_iff`: a step has the thread wait for itself exactly when it is a
    pending accept that completes with an error other than `operation_aborted`.
  - `no_self_deadlock_iff`: no step of a run does exactly when no accept of it ends so.
  - `operation_toOption`, `poll_toOption`, `handle_of_acceptFails`: the steps are those of
    `Sock.Api`, whose flag `syncAsyncMutex` says that a thread has deadlocked.
-/

import Esp32Cam.Lib.Mutex
import Esp32Cam.Lib.PartialRun
import Esp32Cam.Sock.Api

namespace Esp32Cam.Sock.Locking

open Esp32Cam.Lib
open Esp32Cam.Lib.Locked (lift lockGuard Safe)
open Esp32Cam.Sock.Api (Sent accepted settle)
open Esp32Cam.Asio (Endpoint)

/-! ## The operations, each behind its `lock_guard` -/

def connect (a : Api) (os : Os) (aRemoteEndpoint : Endpoint) (aLocalPort : UInt16) :
    Locked (Api × UInt16 × Option Error) :=
  lockGuard (lift (a.connect os aRemoteEndpoint aLocalPort))

def disconnect (a : Api) (os : Os) (aRemoteEndpoint : Endpoint) (aPort : UInt16) : Locked (Api × Option Error) :=
  lockGuard (lift (a.disconnect os aRemoteEndpoint aPort))

def openTcp (a : Api) (os : Os) (aLocalPort : UInt16) : Locked (Api × Option Error) :=
  lockGuard (lift (a.openTcp os aLocalPort))

def openUdp (a : Api) (os : Os) (aLocalPort : UInt16) : Locked (Api × Option Error) :=
  lockGuard (lift (a.openUdp os aLocalPort))

def closeUdp (a : Api) (os : Os) (aPort : UInt16) : Locked (Api × Option Error) := lockGuard (lift (a.closeUdp os aPort))

def closeTcp (closeCliDisconnect : Bool) (a : Api) (os : Os) (aPort : UInt16) : Locked (Api × Option Error) :=
  lockGuard (lift (a.closeTcp closeCliDisconnect os aPort))

def sendToTcp (a : Api) (os : Os) (aEndpoint : Endpoint) (aLocalPort : UInt16) : Locked Sent :=
  lockGuard (lift (a.sendToTcp os aEndpoint aLocalPort none))

def sendToUdp (a : Api) (os : Os) (aLocalPort : UInt16) : Locked (Api × Sent) :=
  lockGuard (lift (a.sendToUdp os aLocalPort))

inductive Operation where
  | connect (os : Os) (aRemoteEndpoint : Endpoint) (aLocalPort : UInt16)
  | disconnect (os : Os) (aRemoteEndpoint : Endpoint) (aPort : UInt16)
  | openTcp (os : Os) (aLocalPort : UInt16)
  | openUdp (os : Os) (aLocalPort : UInt16)
  | closeTcp (os : Os) (aPort : UInt16)
  | closeUdp (os : Os) (aPort : UInt16)
  | sendToTcp (os : Os) (aEndpoint : Endpoint) (aLocalPort : UInt16)
  | sendToUdp (os : Os) (aLocalPort : UInt16)
  deriving DecidableEq

def operation (closeCliDisconnect : Bool) (a : Api) : Operation → Locked Api
  | .connect os remote port => do return (← connect a os remote port).1
  | .disconnect os remote port => do return (← disconnect a os remote port).1
  | .openTcp os port => do return (← openTcp a os port).1
  | .openUdp os port => do return (← openUdp a os port).1
  | .closeTcp os port => do return (← closeTcp closeCliDisconnect a os port).1
  | .closeUdp os port => do return (← closeUdp a os port).1
  | .sendToTcp os remote port => do
    let _ ← sendToTcp a os remote port
    return a
  | .sendToUdp os port => do return (← sendToUdp a os port).1

/-! ## The handlers -/

/-- What the receivers of a notification call. -/
def notifyAs (closeCliDisconnect : Bool) (a : Api) (calls : List Operation) : Locked Api :=
  calls.foldlM (operation closeCliDisconnect) a

def onAccept (a : Api) (it : Nat) (remote : Option Endpoint) : Locked Api :=
  match a.tcpListening[it]? with
  | none => return a
  | some acceptor =>
    if !acceptor.pending then return a
    else lockGuard do return { a with tcpConnected := a.tcpConnected ++ [accepted acceptor remote] }

/-- `aLocalPort` is the port `openTcp` was called for. -/
def onAcceptError (closeCliDisconnect : Bool) (a : Api) (os : Os) (it : Nat) (aLocalPort : UInt16) (aError : Error) :
    Locked Api :=
  match a.tcpListening[it]? with
  | none => return a
  | some acceptor =>
    if !acceptor.pending then return a
    else
      let a := { a with tcpListening := settle it a.tcpListening }
      if aError = .operationAborted then return a
      else lockGuard do return (← closeTcp closeCliDisconnect a os aLocalPort).1

/-- Reading goes on behind the notification, for which the socket is asked for its port again. -/
def onUdpReceive (closeCliDisconnect : Bool) (a : Api) (os : Os) (it : Nat) (calls : List Operation) : Locked Api :=
  match a.udp[it]? with
  | none => return a
  | some socket =>
    if !socket.pending then return a
    else do
      let a ← notifyAs closeCliDisconnect a calls
      lift (if os.localEndpoint.isSome then none else some a)

def onUdpReceiveError (a : Api) (os : Os) (it : Nat) (aError : Error) : Locked Api :=
  match a.udp[it]? with
  | none => return a
  | some socket =>
    if !socket.pending then return a
    else
      let a := { a with udp := settle it a.udp }
      if aError = .operationAborted then return a
      else do
        let port ← lift socket.localEndpoint
        return (← closeUdp a os port).1

def onTcpReceive (closeCliDisconnect : Bool) (a : Api) (os : Os) (it : Nat) (calls : List Operation) : Locked Api :=
  match a.tcpConnected[it]? with
  | none => return a
  | some socket =>
    if !socket.pending then return a
    else if os.localEndpoint.isSome then lift none
    else notifyAs closeCliDisconnect a calls

def onTcpReceiveError (a : Api) (os : Os) (it : Nat) (aErr : Error) : Locked Api :=
  match a.tcpConnected[it]? with
  | none => return a
  | some socket =>
    if !socket.pending then return a
    else
      let a := { a with tcpConnected := settle it a.tcpConnected }
      if !aErr.ends then return a
      else
        match socket.remoteEndpoint, socket.localEndpoint with
        | some epRemote, some portLocal => do return (← disconnect a os epRemote portLocal).1
        | _, _ => return a

inductive Event where
  | operation (c : Operation)
  | accept (it : Nat) (remote : Option Endpoint)
  | acceptError (os : Os) (it : Nat) (aLocalPort : UInt16) (aError : Error)
  | udpReceive (os : Os) (it : Nat) (calls : List Operation)
  | udpReceiveError (os : Os) (it : Nat) (aError : Error)
  | tcpReceive (os : Os) (it : Nat) (calls : List Operation)
  | tcpReceiveError (os : Os) (it : Nat) (aErr : Error)
  | peerLost (it : Nat)
  deriving DecidableEq

def event (closeCliDisconnect : Bool) (a : Api) : Event → Locked Api
  | .operation c => operation closeCliDisconnect a c
  | .accept it remote => onAccept a it remote
  | .acceptError os it aLocalPort aError => onAcceptError closeCliDisconnect a os it aLocalPort aError
  | .udpReceive os it calls => onUdpReceive closeCliDisconnect a os it calls
  | .udpReceiveError os it aError => onUdpReceiveError a os it aError
  | .tcpReceive os it calls => onTcpReceive closeCliDisconnect a os it calls
  | .tcpReceiveError os it aErr => onTcpReceiveError a os it aErr
  | .peerLost it => return a.onPeerLost it

/-- Callers and `ioContext.poll()` do not hold the mutex. -/
def poll (closeCliDisconnect : Bool) (a : Api) (e : Event) : Outcome Api := event closeCliDisconnect a e false

def step (closeCliDisconnect : Bool) (a : Api) (e : Event) : Option Api := (poll closeCliDisconnect a e).toOption

def NoSelfDeadlock (closeCliDisconnect : Bool) (a : Api) (es : List Event) : Prop :=
  PartialRun.Allowed (step closeCliDisconnect) (fun a e => poll closeCliDisconnect a e ≠ .deadlocked) a es

/-- An accept that is waited for completes with an error, and has not been called off. -/
def AcceptFails (a : Api) : Event → Prop
  | .acceptError _ it _ aError => (∃ acceptor, a.tcpListening[it]? = some acceptor ∧ acceptor.pending = true) ∧
    aError ≠ .operationAborted
  | _ => False

/-! ## What each call does to the thread -/

section
variable {cfg : Bool} {a a' : Api} {os : Os} {it : Nat} {port : UInt16} {aError : Error}

theorem operation_safe (c : Operation) : Safe (operation cfg a c) := by
  cases c <;> exact Locked.safe_lockGuard_lift.bind fun _ => Locked.safe_pure

theorem notifyAs_safe (calls : List Operation) : Safe (notifyAs cfg a calls) :=
  Locked.safe_foldlM (fun _ c => operation_safe c) calls a

theorem onAccept_safe (remote : Option Endpoint) : Safe (onAccept a it remote) := by
  unfold onAccept
  split
  · exact Locked.safe_pure
  · split
    · exact Locked.safe_pure
    · exact Locked.safe_pure

theorem onUdpReceive_safe (calls : List Operation) : Safe (onUdpReceive cfg a os it calls) := by
  unfold onUdpReceive
  split
  · exact Locked.safe_pure
  · split
    · exact Locked.safe_pure
    · exact (notifyAs_safe calls).bind fun _ => Locked.safe_lift

theorem onUdpReceiveError_safe : Safe (onUdpReceiveError a os it aError) := by
  unfold onUdpReceiveError
  split
  · exact Locked.safe_pure
  · split
    · exact Locked.safe_pure
    · split
      · exact Locked.safe_pure
      -- the mutex is left to `closeUdp`
      · exact Locked.safe_lift.bind fun _ => Locked.safe_lockGuard_lift.bind fun _ => Locked.safe_pure

theorem onTcpReceive_safe (calls : List Operation) : Safe (onTcpReceive cfg a os it calls) := by
  unfold onTcpReceive
  split
  · exact Locked.safe_pure
  · split
    · exact Locked.safe_pure
    · split
      · exact Locked.safe_lift
      · exact notifyAs_safe calls

theorem onTcpReceiveError_safe : Safe (onTcpReceiveError a os it aError) := by
  unfold onTcpReceiveError
  split
  · exact Locked.safe_pure
  · split
    · exact Locked.safe_pure
    · split
      · exact Locked.safe_pure
      · split
        -- the mutex is left to `disconnect`
        · exact Locked.safe_lockGuard_lift.bind fun _ => Locked.safe_pure
        · exact Locked.safe_pure

theorem onAcceptError_deadlocked_iff : onAcceptError cfg a os it port aError false = .deadlocked ↔
    (∃ acceptor, a.tcpListening[it]? = some acceptor ∧ acceptor.pending = true) ∧ aError ≠ .operationAborted := by
  unfold onAcceptError
  cases hget : a.tcpListening[it]? with
  | none => simp
  | some acceptor =>
    by_cases hpending : acceptor.pending = true
    · by_cases haborted : aError = .operationAborted
      · simp [hpending, haborted]
      -- `closeTcp` asks for the mutex the handler has taken
      · simp [hpending, haborted, closeTcp]
    · simp [hpending]

/-- The steps that have their thread wait for itself. -/
theorem poll_deadlocked_iff (e : Event) : poll cfg a e = .deadlocked ↔ AcceptFails a e := by
  cases e with
  | operation c => exact iff_of_false (operation_safe c) id
  | accept it remote => exact iff_of_false (onAccept_safe remote) id
  | acceptError os it port aError => exact onAcceptError_deadlocked_iff
  | udpReceive os it calls => exact iff_of_false (onUdpReceive_safe calls) id
  | udpReceiveError os it aError => exact iff_of_false onUdpReceiveError_safe id
  | tcpReceive os it calls => exact iff_of_false (onTcpReceive_safe calls) id
  | tcpReceiveError os it aErr => exact iff_of_false onTcpReceiveError_safe id
  | peerLost it => exact iff_of_false Locked.safe_pure id

end

/-! ## Runs -/

/-- A run from no sockets is free of self-deadlock exactly when no accept of it that is
    waited for completes with an error other than `operation_aborted`. -/
theorem no_self_deadlock_iff (closeCliDisconnect : Bool) (es : List Event) :
    NoSelfDeadlock closeCliDisconnect {} es ↔
      PartialRun.Allowed (step closeCliDisconnect) (fun a e => ¬ AcceptFails a e) {} es :=
  PartialRun.allowed_congr fun _ e => not_congr (poll_deadlocked_iff e)

/-- A port is listened on, and the system has no descriptor left for the connection. -/
theorem a_failed_accept_deadlocks :
    ¬ NoSelfDeadlock false {} [.operation (.openTcp {} 5000), .acceptError {} 0 5000 (.system (.other 23))] := by
  intro h
  have hopened : step false {} (.operation (.openTcp {} 5000)) =
      some { tcpListening := [{ localPort := 5000, pending := true }] } := by decide
  exact (h.2 _ hopened).1 (by decide)

/-! ## The steps are those of `Sock.Api` -/

section
variable {cfg : Bool} {a a' : Api} {os : Os} {port : UInt16}

def Operation.call : Operation → Call
  | .connect os remote port => .connect os remote port
  | .disconnect os remote port => .disconnect os remote port
  | .openTcp os port => .openTcp os port
  | .openUdp os port => .openUdp os port
  | .closeTcp os port => .closeTcp os port
  | .closeUdp os port => .closeUdp os port
  | .sendToTcp os remote port => .sendToTcp os remote port
  | .sendToUdp os port => .sendToUdp os port

theorem operation_toOption (c : Operation) : (operation cfg a c false).toOption = a.step cfg c.call := by
  cases c with
  | connect os remote port =>
    rw [Api.step, Operation.call, Api.call, Option.map_map]
    exact Locked.toOption_guarded _
  | disconnect os remote port => exact Locked.toOption_guarded _
  | openTcp os port => exact Locked.toOption_guarded _
  | openUdp os port => exact Locked.toOption_guarded _
  | closeTcp os port => exact Locked.toOption_guarded _
  | closeUdp os port => exact Locked.toOption_guarded _
  | sendToTcp os remote port =>
    rw [Api.step, Operation.call, Api.call, Option.map_map]
    exact Locked.toOption_guarded _
  | sendToUdp os port =>
    rw [Api.step, Operation.call, Api.call, Option.map_map]
    exact Locked.toOption_guarded _

def ofHandler (os : Os) (aLocalPort : UInt16) : Handler → Event
  | .accept it remote => .accept it remote
  | .acceptError it aError => .acceptError os it aLocalPort aError
  | .udpReceiveError os it aError => .udpReceiveError os it aError
  | .tcpReceiveError os it aErr => .tcpReceiveError os it aErr
  | .peerLost it => .peerLost it

theorem poll_toOption (h : Handler) (hfree : a.syncAsyncMutex = false) (hkept : ¬ AcceptFails a (ofHandler os port h)) :
    (poll cfg a (ofHandler os port h)).toOption = a.handle h := by
  cases h with
  | accept it remote =>
    show (onAccept a it remote false).toOption = a.onAccept it remote
    unfold onAccept Api.onAccept
    cases a.tcpListening[it]? with
    | none => rfl
    | some acceptor =>
      by_cases hpending : acceptor.pending = true
      · simp [Outcome.toOption, hpending, Api.lock, hfree]
      · simp [Outcome.toOption, hpending]
  | acceptError it aError =>
    show (onAcceptError cfg a os it port aError false).toOption = a.onAcceptError it aError
    unfold onAcceptError Api.onAcceptError
    cases hget : a.tcpListening[it]? with
    | none => rfl
    | some acceptor =>
      by_cases hpending : acceptor.pending = true
      · have haborted : aError = .operationAborted := by
          by_contra haborted
          exact hkept ⟨⟨acceptor, hget, hpending⟩, haborted⟩
        simp [Outcome.toOption, hpending, haborted]
      · simp [Outcome.toOption, hpending]
  | udpReceiveError os it aError =>
    show (onUdpReceiveError a os it aError false).toOption = a.onUdpReceiveError os it aError
    unfold onUdpReceiveError Api.onUdpReceiveError
    cases a.udp[it]? with
    | none => rfl
    | some socket =>
      by_cases hpending : socket.pending = true
      · by_cases haborted : aError = .operationAborted
        · simp [Outcome.toOption, hpending, haborted]
        · simp only [hpending, haborted, Bool.not_true, Bool.false_eq_true, if_false]
          cases socket.localEndpoint with
          | none => rfl
          | some port => exact Locked.toOption_guarded _
      · simp [Outcome.toOption, hpending]
  | tcpReceiveError os it aErr =>
    show (onTcpReceiveError a os it aErr false).toOption = a.onTcpReceiveError os it aErr
    unfold onTcpReceiveError Api.onTcpReceiveError
    cases a.tcpConnected[it]? with
    | none => rfl
    | some socket =>
      by_cases hpending : socket.pending = true
      · by_cases hends : aErr.ends = true
        · simp only [hpending, hends, Bool.not_true, Bool.false_eq_true, if_false]
          cases socket.remoteEndpoint with
          | none => rfl
          | some epRemote =>
            cases socket.localEndpoint with
            | none => rfl
            | some portLocal => exact Locked.toOption_guarded _
        · simp [Outcome.toOption, hpending, hends]
      · simp [Outcome.toOption, hpending]
  | peerLost it => rfl

/-- Where the thread has deadlocked, `Sock.Api` has its mutex held for good. -/
theorem handle_of_acceptFails (h : Handler) (hfree : a.syncAsyncMutex = false)
    (hfails : AcceptFails a (ofHandler os port h)) : ∃ a', a.handle h = some a' ∧ a'.syncAsyncMutex = true := by
  cases h with
  | acceptError it aError =>
    obtain ⟨⟨acceptor, hget, hpending⟩, haborted⟩ := hfails
    refine ⟨{ a with tcpListening := settle it a.tcpListening, syncAsyncMutex := true }, ?_, rfl⟩
    show a.onAcceptError it aError = _
    simp [Api.onAcceptError, hget, hpending, haborted, Api.lock, hfree]
  | accept it remote => exact hfails.elim
  | udpReceiveError os it aError => exact hfails.elim
  | tcpReceiveError os it aErr => exact hfails.elim
  | peerLost it => exact hfails.elim

end

end Esp32Cam.Sock.Locking
