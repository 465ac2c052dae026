/-
  Esp32Cam.Mav.FileTransferProtocol — the messages of the MAVLink file transfer protocol.

  `Op` is the list of operations with their codes, `Payload` the payload of a
  FILE_TRANSFER_PROTOCOL message, and the three setters fill the requests the client
  sends. A payload's `data` are the bytes that were put there; the rest of the 239 is
  zero.
-/

import Esp32Cam.Lib.Word

namespace Esp32Cam.Mav

open Esp32Cam.Lib

inductive Ftp.Op where
  | none | terminateSession | resetSessions | listDirectory | openFileRo | readFile | createFile | writeFile
  | removeFile | createDirectory | removeDirectory | openFileWo | truncateFile | rename | calcFileCrc32 | burstReadFile
  | ack | nak
  deriving DecidableEq, Repr

def Ftp.Op.code : Ftp.Op → UInt8
  | .none => 0 | .terminateSession => 1 | .resetSessions => 2 | .listDirectory => 3 | .openFileRo => 4 | .readFile => 5
  | .createFile => 6 | .writeFile => 7 | .removeFile => 8 | .createDirectory => 9 | .removeDirectory => 10
  | .openFileWo => 11 | .truncateFile => 12 | .rename => 13 | .calcFileCrc32 => 14 | .burstReadFile => 15
  | .ack => 128 | .nak => 129

def Ftp.kMaxDataLength : Nat := 251 - 12

structure Ftp.Payload where
  seqNumber : UInt16 := 0
  session : UInt8 := 0
  opcode : UInt8 := 0
  size : UInt8 := 0
  reqOpcode : UInt8 := 0
  offset : Nat := 0
  data : List UInt8 := []
  deriving DecidableEq, Repr

structure FileTransferProtocol where
  targetNetwork : UInt8 := 0
  targetSystem : UInt8 := 0
  targetComponent : UInt8 := 0
  payload : Ftp.Payload := {}
  deriving DecidableEq, Repr

namespace Globals

def getSysId : UInt8 := 1
def getCompId : UInt8 := 240
/-- `MAV_COMP_ID_AUTOPILOT1`. -/
def getCompidAutopilot : UInt8 := 1

end Globals

namespace FileTransferProtocol

def setOpenFileSessionFields (m : FileTransferProtocol) (sequenceNumber : UInt16) (operation : Ftp.Op)
    (filePath : List UInt8) : FileTransferProtocol :=
  { m with
    targetSystem := Globals.getCompidAutopilot
    targetComponent := Globals.getSysId
    targetNetwork := 0
    payload := { m.payload with
      seqNumber := sequenceNumber
      opcode := operation.code
      data := filePath
      size := UInt8.ofNat filePath.length } }

/-- The data and their size are put in by the caller. -/
def setWriteFileFields (m : FileTransferProtocol) (sequenceNumber : UInt16) (sessionId : UInt8) (fileOffset : Nat) :
    FileTransferProtocol :=
  { m with
    targetSystem := Globals.getCompidAutopilot
    targetComponent := Globals.getSysId
    targetNetwork := 0
    payload := { m.payload with
      seqNumber := sequenceNumber
      session := sessionId
      offset := fileOffset
      opcode := Ftp.Op.writeFile.code } }

/-- The session field takes the sequence number, not the session id. -/
def setTerminateSessionFields (m : FileTransferProtocol) (sequenceNumber : UInt16) (_ : UInt8) : FileTransferProtocol :=
  { m with
    targetSystem := Globals.getCompidAutopilot
    targetComponent := Globals.getSysId
    targetNetwork := 0
    payload := { m.payload with
      seqNumber := sequenceNumber
      session := sequenceNumber.toUInt8
      opcode := Ftp.Op.terminateSession.code } }

end FileTransferProtocol

/-- A MAVLink message: of the file transfer protocol, or of another id. -/
inductive MavlinkMessage where
  | fileTransferProtocol (m : FileTransferProtocol)
  | other (msgid : Nat)
  deriving DecidableEq, Repr

inductive Microservice.Ret where
  | ignored | response | noResponse
  deriving DecidableEq, Repr

end Esp32Cam.Mav
