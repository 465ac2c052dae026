/-
  Esp32Cam.Sock.Api — the wrapper over the sockets of the module.

  Three lists of sockets (connected, listening, UDP), the calls that put sockets into
  them and take them out, and the handlers of the asynchronous operations that wait on
  them. What the operating system answers is part of each call (`Os`). A call that
  throws, or waits for a mutex that is never released, does not return (`none`).

  The sockets are put into the lists first and opened afterwards; a list is searched by
  asking each socket for its local endpoint, which throws on a socket that is not open.
-/

import Esp32Cam.Lib.FindIf
import Esp32Cam.Bdg.EndpointVariant

namespace Esp32Cam.Sock

open Esp32Cam.Lib
open Esp32Cam.Asio (Endpoint)

inductive SysError where
  | alreadyConnected
  | notConnected
  | operationAborted
  | connectionReset
  | badDescriptor
  | other (code : Nat)
  deriving DecidableEq, Repr

/-- `asio::error_code`, without success: the system's errors, and those of the library. -/
inductive Error where
  | system (e : SysError)
  | alreadyOpen
  | notFound
  | eof
  deriving DecidableEq, Repr

def Error.alreadyConnected : Error := .system .alreadyConnected
def Error.notConnected : Error := .system .notConnected
def Error.operationAborted : Error := .system .operationAborted

def Error.ends (e : Error) : Bool := e == .system .connectionReset || e == .eof || e == .system .badDescriptor

/-- The answers to the calls one operation makes; `none` is success. -/
structure Os where
  open_ : Option SysError := none
  bind : Option SysError := none
  listen : Option SysError := none
  connect : Option SysError := none
  localEndpoint : Option SysError := none
  send : Option SysError := none
  /-- The bytes taken by a send that succeeds. -/
  nSent : Nat := 0
  /-- An unbound socket gets its port although the send fails. -/
  autoBinds : Bool := false
  close : Option SysError := none
  closeClient : Option SysError := none
  /-- The port handed out where none is asked for. -/
  ephemeral : { port : UInt16 // port ≠ 0 } := ⟨49153, by decide⟩
  deriving DecidableEq

def Os.bound (os : Os) (aLocalPort : UInt16) : UInt16 := if aLocalPort = 0 then os.ephemeral else aLocalPort

/-- A socket. `pending`: an asynchronous operation waits on it. `acknowledged` is history:
    nothing reads it, and an accepted socket takes it over from its acceptor. -/
structure Socket where
  isOpen : Bool := true
  /-- 0 while the socket is not bound. -/
  localPort : UInt16
  /-- The peer, while there is one. -/
  remote : Option Endpoint := none
  pending : Bool := false
  acknowledged : Bool := false
  deriving DecidableEq

namespace Socket

/-- What an operation that has failed leaves in its list. -/
def closed : Socket := { isOpen := false, localPort := 0 }

/-- `none`: an error, or the overload without an error code throws. -/
def localEndpoint (s : Socket) : Option UInt16 := if s.isOpen then some s.localPort else none

def remoteEndpoint (s : Socket) : Option Endpoint := if s.isOpen then s.remote else none

end Socket

/-! ## `Container::find` -/

def findPort (aLocalPort : UInt16) (ss : List Socket) : Option (Option Nat) :=
  findIf (fun aVal => aVal.localEndpoint.map (· == aLocalPort)) ss

def findRemotePort (aRemoteEndpoint : Endpoint) (aLocalPort : UInt16) (ss : List Socket) : Option (Option Nat) :=
  findIf (fun aVal =>
    match aVal.remoteEndpoint with
    | none => some false
    | some remoteEndpoint => aVal.localEndpoint.map fun localPort =>
      localPort == aLocalPort && remoteEndpoint == aRemoteEndpoint) ss

def findRemote (aRemoteEndpoint : Endpoint) (ss : List Socket) : Option (Option Nat) :=
  findIf (fun aVal =>
    match aVal.remoteEndpoint with
    | none => some false
    | some remoteEndpoint => some (remoteEndpoint == aRemoteEndpoint)) ss

structure Api where
  tcpConnected : List Socket := []
  tcpListening : List Socket := []
  udp : List Socket := []
  /-- Held by a thread that waits for it itself. -/
  syncAsyncMutex : Bool := false
  deriving DecidableEq

namespace Api

/-- With a local port of 0, any connection to the endpoint will do. -/
def findConnected (a : Api) (aRemoteEndpoint : Endpoint) (aLocalPort : UInt16) : Option (Option Nat) :=
  if aLocalPort = 0 then findRemote aRemoteEndpoint a.tcpConnected
  else findRemotePort aRemoteEndpoint aLocalPort a.tcpConnected

/-- `std::lock_guard`: the rest of the call, where the mutex can be had. -/
def lock {α : Type} (a : Api) (call : Option α) : Option α := if a.syncAsyncMutex then none else call

/-! ## The calls -/

/-- The first error of opening, binding and connecting a socket. -/
def connectError (os : Os) (aLocalPort : UInt16) : Option SysError :=
  (os.open_.or (if aLocalPort = 0 then none else os.bind)).or os.connect

def connected (os : Os) (aRemoteEndpoint : Endpoint) (aLocalPort : UInt16) : Socket :=
  { localPort := os.bound aLocalPort, remote := some aRemoteEndpoint, pending := true }

/-- The local port is read and written. -/
def connect (a : Api) (os : Os) (aRemoteEndpoint : Endpoint) (aLocalPort : UInt16) :
    Option (Api × UInt16 × Option Error) :=
  a.lock <|
    match a.findConnected aRemoteEndpoint aLocalPort with
    | none => none
    | some (some it) =>
      let localEndpoint := (a.tcpConnected[it]?).bind Socket.localEndpoint
      some (a, localEndpoint.getD aLocalPort, some .alreadyConnected)
    | some none =>
      match connectError os aLocalPort with
      -- closed, and taken out of the list again
      | some aErr => some (a, aLocalPort, some (.system aErr))
      | none =>
        if os.localEndpoint.isSome then none
        else
          let port := os.bound aLocalPort
          some ({ a with tcpConnected := a.tcpConnected ++ [connected os aRemoteEndpoint aLocalPort] }, port, none)

def disconnect (a : Api) (os : Os) (aRemoteEndpoint : Endpoint) (aPort : UInt16) : Option (Api × Option Error) :=
  a.lock <|
    match findRemotePort aRemoteEndpoint aPort a.tcpConnected with
    | none => none
    | some none => some (a, some .notConnected)
    | some (some it) => some ({ a with tcpConnected := a.tcpConnected.eraseIdx it }, os.close.map .system)

/-- The socket an open call leaves behind: on its port, or closed. -/
def opened (os : Os) (aLocalPort : UInt16) : Option SysError → Socket
  | none => { localPort := os.bound aLocalPort, pending := true }
  | some _ => .closed

def openTcpError (os : Os) : Option SysError := (os.open_.or os.bind).or os.listen

def openTcp (a : Api) (os : Os) (aLocalPort : UInt16) : Option (Api × Option Error) :=
  a.lock <|
    match findPort aLocalPort a.tcpListening with
    | none => none
    | some (some _) => some (a, some .alreadyOpen)
    | some none =>
      let aErr := openTcpError os
      some ({ a with tcpListening := a.tcpListening ++ [opened os aLocalPort aErr] }, aErr.map .system)

def openUdpError (os : Os) : Option SysError := os.open_.or os.bind

def openUdp (a : Api) (os : Os) (aLocalPort : UInt16) : Option (Api × Option Error) :=
  a.lock <|
    match findPort aLocalPort a.udp with
    | none => none
    | some (some _) => some (a, some .alreadyOpen)
    | some none =>
      let aErr := openUdpError os
      some ({ a with udp := a.udp ++ [opened os aLocalPort aErr] }, aErr.map .system)

def closeUdp (a : Api) (os : Os) (aPort : UInt16) : Option (Api × Option Error) :=
  a.lock <|
    match findPort aPort a.udp with
    | none => none
    | some none => some (a, some .notFound)
    | some (some it) => some ({ a with udp := a.udp.eraseIdx it }, os.close.map .system)

def isClient (aPort : UInt16) (s : Socket) : Bool := s.localEndpoint == some aPort

/-- What `SOCKET_SERVER_CLOSE_CLI_DISCONNECT` adds to closing a port; closing a client may throw. -/
def disconnectClients (closeCliDisconnect : Bool) (a : Api) (os : Os) (aPort : UInt16) : Option Api :=
  if !closeCliDisconnect then some a
  else if a.tcpConnected.any (isClient aPort) && os.closeClient.isSome then none
  else some { a with tcpConnected := a.tcpConnected.filter (!isClient aPort ·) }

def closeTcp (closeCliDisconnect : Bool) (a : Api) (os : Os) (aPort : UInt16) : Option (Api × Option Error) :=
  a.lock <|
    match disconnectClients closeCliDisconnect a os aPort with
    | none => none
    | some a =>
      match findPort aPort a.tcpListening with
      | none => none
      | some none => some (a, some .notFound)
      | some (some it) => some ({ a with tcpListening := a.tcpListening.eraseIdx it }, os.close.map .system)

/-- What a send has come to: the local port and the error as the call leaves them, and the
    socket that has taken bytes, with their count. -/
structure Sent where
  aLocalPort : UInt16
  aErr : Option Error
  taken : Option (Nat × Nat)
  deriving DecidableEq

def takenBy (it : Nat) (os : Os) : Option (Nat × Nat) := if os.send.isSome then none else some (it, os.nSent)

/-- Where there is no such socket, the call returns the number of `not_connected` for a
    count, and leaves the error as it was. -/
def sendToTcp (a : Api) (os : Os) (aEndpoint : Endpoint) (aLocalPort : UInt16) (aErr : Option Error) : Option Sent :=
  a.lock <|
    match a.findConnected aEndpoint aLocalPort with
    | none => none
    | some none => some ⟨aLocalPort, aErr, none⟩
    | some (some it) => some ⟨aLocalPort, os.send.map .system, takenBy it os⟩

/-- The errors of creating the socket to send from, up to binding it and up to asking for its port. -/
def bindError (os : Os) : Option SysError := os.open_.or os.bind
def createError (os : Os) : Option SysError := (bindError os).or os.localEndpoint

def created (os : Os) (aLocalPort : UInt16) : Socket :=
  { isOpen := os.open_.isNone
    localPort := if (bindError os).isSome then 0 else os.bound aLocalPort
    pending := (createError os).isNone }

/-- Sending binds a socket that is not. -/
def sendFrom (s : Socket) (os : Os) : Socket :=
  if s.isOpen && s.localPort == 0 && (os.send.isNone || os.autoBinds) then { s with localPort := os.ephemeral } else s

def sendError (s : Socket) (os : Os) : Option SysError := if s.isOpen then os.send else some .badDescriptor

def createdPort (os : Os) (aLocalPort : UInt16) : UInt16 :=
  if (bindError os).isSome then aLocalPort else if os.localEndpoint.isSome then 0 else os.bound aLocalPort

/-- The send is tried whatever creating its socket has come to, and its error is the one left. -/
def sendToUdp (a : Api) (os : Os) (aLocalPort : UInt16) : Option (Api × Sent) :=
  a.lock <|
    match (if aLocalPort = 0 then some none else findPort aLocalPort a.udp) with
    | none => none
    | some (some it) => some (a, ⟨aLocalPort, os.send.map .system, takenBy it os⟩)
    | some none =>
      let socket := created os aLocalPort
      let aErr := sendError socket os
      some ({ a with udp := a.udp ++ [sendFrom socket os] }, ⟨createdPort os aLocalPort, aErr.map .system,
        if aErr.isSome then none else some (a.udp.length, os.nSent)⟩)

/-! ## The handlers of the asynchronous operations -/

/-- The operation of the socket at `it` is no longer waited for. -/
def settle (it : Nat) (ss : List Socket) : List Socket := ss.modify it fun s => { s with pending := false }

/-- The socket of an accepted connection; its peer may be gone already. -/
def accepted (acceptor : Socket) (remote : Option Endpoint) : Socket :=
  { localPort := acceptor.localPort, remote, pending := true, acknowledged := acceptor.acknowledged }

def onAccept (a : Api) (it : Nat) (remote : Option Endpoint) : Option Api :=
  match a.tcpListening[it]? with
  | none => some a
  | some acceptor =>
    if !acceptor.pending then some a
    else a.lock <| some { a with tcpConnected := a.tcpConnected ++ [accepted acceptor remote] }

/-- The handler takes the mutex and calls `closeTcp`, which waits for it. -/
def onAcceptError (a : Api) (it : Nat) (aError : Error) : Option Api :=
  match a.tcpListening[it]? with
  | none => some a
  | some acceptor =>
    if !acceptor.pending then some a
    else
      let a := { a with tcpListening := settle it a.tcpListening }
      if aError = .operationAborted then some a else a.lock <| some { a with syncAsyncMutex := true }

def onUdpReceiveError (a : Api) (os : Os) (it : Nat) (aError : Error) : Option Api :=
  match a.udp[it]? with
  | none => some a
  | some socket =>
    if !socket.pending then some a
    else
      let a := { a with udp := settle it a.udp }
      if aError = .operationAborted then some a
      else
        match socket.localEndpoint with
        | none => none
        | some port => (a.closeUdp os port).map Prod.fst

def onTcpReceiveError (a : Api) (os : Os) (it : Nat) (aErr : Error) : Option Api :=
  match a.tcpConnected[it]? with
  | none => some a
  | some socket =>
    if !socket.pending then some a
    else
      let a := { a with tcpConnected := settle it a.tcpConnected }
      if !aErr.ends then some a
      else
        match socket.remoteEndpoint, socket.localEndpoint with
        | some epRemote, some portLocal => (a.disconnect os epRemote portLocal).map Prod.fst
        | _, _ => some a

/-- The peer is gone; no handler has been told yet. -/
def onPeerLost (a : Api) (it : Nat) : Api :=
  { a with tcpConnected := a.tcpConnected.modify it fun s => { s with remote := none } }

end Api

/-! ## The calls and the handlers as the steps of a run -/

/-- What happens to the sockets from outside. -/
inductive Handler where
  | accept (it : Nat) (remote : Option Endpoint)
  | acceptError (it : Nat) (aError : Error)
  | udpReceiveError (os : Os) (it : Nat) (aError : Error)
  | tcpReceiveError (os : Os) (it : Nat) (aErr : Error)
  | peerLost (it : Nat)
  deriving DecidableEq

inductive Call where
  | connect (os : Os) (aRemoteEndpoint : Endpoint) (aLocalPort : UInt16)
  | disconnect (os : Os) (aRemoteEndpoint : Endpoint) (aPort : UInt16)
  | openTcp (os : Os) (aLocalPort : UInt16)
  | openUdp (os : Os) (aLocalPort : UInt16)
  | closeTcp (os : Os) (aPort : UInt16)
  | closeUdp (os : Os) (aPort : UInt16)
  | sendToTcp (os : Os) (aEndpoint : Endpoint) (aLocalPort : UInt16)
  | sendToUdp (os : Os) (aLocalPort : UInt16)
  | handler (h : Handler)
  deriving DecidableEq

def Api.handle (a : Api) : Handler → Option Api
  | .accept it remote => a.onAccept it remote
  | .acceptError it aError => a.onAcceptError it aError
  | .udpReceiveError os it aError => a.onUdpReceiveError os it aError
  | .tcpReceiveError os it aErr => a.onTcpReceiveError os it aErr
  | .peerLost it => some (a.onPeerLost it)

/-- The state behind the call, and the error it reports. -/
def Api.call (closeCliDisconnect : Bool) (a : Api) : Call → Option (Api × Option Error)
  | .connect os remote port => (a.connect os remote port).map fun (a, _, aErr) => (a, aErr)
  | .disconnect os remote port => a.disconnect os remote port
  | .openTcp os port => a.openTcp os port
  | .openUdp os port => a.openUdp os port
  | .closeTcp os port => a.closeTcp closeCliDisconnect os port
  | .closeUdp os port => a.closeUdp os port
  | .sendToTcp os remote port => (a.sendToTcp os remote port none).map fun sent => (a, sent.aErr)
  | .sendToUdp os port => (a.sendToUdp os port).map fun (a, sent) => (a, sent.aErr)
  | .handler h => (a.handle h).map (·, none)

def Api.step (closeCliDisconnect : Bool) (a : Api) (c : Call) : Option Api :=
  (a.call closeCliDisconnect c).map Prod.fst

/-- What `apiInit` opens. -/
def kUdpOpen : List UInt16 := [8001]

def apiInit (os : Os) (a : Api) : Option Api :=
  kUdpOpen.foldlM (fun a port => (a.openUdp os port).map Prod.fst) a

end Esp32Cam.Sock
