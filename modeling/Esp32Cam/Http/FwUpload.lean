/-
  Esp32Cam.Http.FwUpload — the upload page, the file it buffers and the client that sends it.

  There is one `FileBufferingContext`. A chunk opens its file if it is not `initialized`;
  the end of an upload queues a notification, or resets the context if the upload has
  failed. The notification hands the client a pointer to the context's file whose deleter
  resets the context: at once if the client does not take it, or when the client lets it
  go. The client's file is therefore the context's own, and changes with it (`setFile`).

  `Event` are the calls of the page's handler, the work queue's turn, and the client's
  own events, in any order.
-/

import Esp32Cam.Mav.FtpAnswers

namespace Esp32Cam.Http

open Esp32Cam.Bft Esp32Cam.Mav

inductive EspErr where
  | ok | fail
  deriving DecidableEq, Repr

inductive InputBytesReceptionState where
  | receiving (input : List UInt8)
  | finished (espErr : EspErr)
  deriving DecidableEq, Repr

structure InputBytesIterationContext where
  receptionState : InputBytesReceptionState
  fileName : List UInt8
  fileSize : Nat
  deriving DecidableEq, Repr

/-- `file` and `initialized` are the `FileBufferingContext`; its file system is the client's. -/
structure FwUpload where
  bufferedFileTransferInstance : Bool
  mediumPriorityInstance : Bool
  file : File
  initialized : Bool
  sErrorMessage : Option String
  /-- Notifications on the work queue. -/
  queued : Nat
  client : BftFtpClient
  deriving DecidableEq, Repr

namespace FwUpload

def fs (u : FwUpload) : SingleBufferRamFileSystem := u.client.fs

def init (bufferedFileTransferInstance mediumPriorityInstance : Bool) (sessionId : UInt32) (fileOffset : Int)
    (fileSize : Nat) : FwUpload where
  bufferedFileTransferInstance := bufferedFileTransferInstance
  mediumPriorityInstance := mediumPriorityInstance
  file := ⟨false, ⟨0⟩, 0⟩
  initialized := false
  sErrorMessage := none
  queued := 0
  client := BftFtpClient.init .init sessionId fileOffset fileSize

/-- The context's file is `file`, also for a client that holds it. -/
def setFile (u : FwUpload) (fs : SingleBufferRamFileSystem) (file : File) : FwUpload :=
  { u with
    file := file
    client := { u.client with
      fs := fs
      requestRepeat := { u.client.requestRepeat with bftFile := u.client.requestRepeat.bftFile.map fun _ => file } } }

def closeFile (u : FwUpload) : FwUpload :=
  let (fs, file) := u.file.close u.fs
  u.setFile fs file

def reset (u : FwUpload) : FwUpload := { u.closeFile with initialized := false }

def append (u : FwUpload) (input : List UInt8) : FwUpload := u.setFile (u.file.append u.fs input).1 u.file

def handleReceiving (u : FwUpload) (c : InputBytesIterationContext) (input : List UInt8) (new : Allocation) :
    FwUpload × EspErr :=
  if !u.initialized then
    let (fs, file) := tryOpenFileWriteBinary u.fs c.fileName c.fileSize new
    let u := u.setFile fs file
    if !file.isValid then ({ u.closeFile with sErrorMessage := some "Unable to open file" }, .fail)
    else ({ u with initialized := true }.append input, .ok)
  else (u.append input, .ok)

def handleFinished (u : FwUpload) (espErr : EspErr) : FwUpload × EspErr :=
  if espErr = .ok then ({ u with queued := u.queued + 1 }, .ok) else (u.reset, .ok)

def handleInputBytesFileBuffering (u : FwUpload) (c : InputBytesIterationContext) (new : Allocation) :
    FwUpload × EspErr :=
  if !u.bufferedFileTransferInstance then
    ({ u with sErrorMessage := some "`BufferedFileTransfer` is not initialized" }, .fail)
  else if !u.mediumPriorityInstance then
    ({ u with sErrorMessage := some "`MediumPriority` work queue is not running" }, .fail)
  else match c.receptionState with
    | .receiving input => u.handleReceiving c input new
    | .finished espErr => u.handleFinished espErr

/-- The client has become `client`; the deleter runs where it has let the file go. -/
def setClient (u : FwUpload) (client : BftFtpClient) : FwUpload :=
  let v := { u with client := client }
  if u.client.requestRepeat.bftFile.isSome ∧ client.requestRepeat.bftFile = none then v.reset else v

/-- The queued notification; nobody keeps the file if the client is at work. -/
def notifyOnFileBufferingFinished (u : FwUpload) : FwUpload :=
  if u.queued = 0 then u
  else
    let v := { u with queued := u.queued - 1, client := u.client.onFileBufferingFinished u.fs u.file }
    if u.client.requestRepeat.state = .idle then v else v.reset

end FwUpload

inductive UploadEvent where
  | handleInputBytes (c : InputBytesIterationContext) (new : Allocation)
  | notifyOnFileBufferingFinished
  | message (m : MavlinkMessage)
  | onHrTimer
  | onDelayedSend
  deriving DecidableEq, Repr

namespace FwUpload

def step (u : FwUpload) : UploadEvent → FwUpload
  | .handleInputBytes c new => (u.handleInputBytesFileBuffering c new).1
  | .notifyOnFileBufferingFinished => u.notifyOnFileBufferingFinished
  | .message m => u.setClient (u.client.step (.message m))
  | .onHrTimer => u.setClient (u.client.step .onHrTimer)
  | .onDelayedSend => u.setClient (u.client.step .onDelayedSend)

end FwUpload

end Esp32Cam.Http
