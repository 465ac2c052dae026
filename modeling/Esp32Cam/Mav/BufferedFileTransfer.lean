/-
  Esp32Cam.Mav.BufferedFileTransfer — the command that fetches a file over HTTP.

  The command runs the HTTP client to its end, and the client calls back on every event
  it has (`HttpEvent`). One callback serves the announcement of the length, the data and
  the end of it, by what its arguments are; it moves the service through its stages. When
  the client is done the file is handed to whoever waits for one, and the command is
  answered.

  The stages share one piece of memory (`StageState`): the name of the file until it is
  open, then the file. Where the code closes a file there and finds a name, or nothing,
  the address it jumps to is made of the name's characters, and the model has no further
  state (`none`).
-/

import Esp32Cam.Bft.FileSystem
import Esp32Cam.Mav.Message

namespace Esp32Cam.Mav.BufferedFileTransfer

open Esp32Cam.Bft

inductive EspErr where
  | ok | fail | noMem | invalidState
  deriving DecidableEq, Repr

/-! ## State -/

inductive Stage where
  | mavlinkInitial | httpInitial | httpReceiving
  deriving DecidableEq, Repr

inductive StageState where
  | mavlinkInitial
  | httpInitial (fileName : List UInt8)
  | httpReceiving (file : File)
  deriving DecidableEq, Repr

structure State where
  stage : Stage
  stageState : StageState
  /-- The file system behind `Bft::BufferedFileTransfer`. -/
  fs : SingleBufferRamFileSystem
  deriving DecidableEq, Repr

namespace State

def init (fs : SingleBufferRamFileSystem) : State := ⟨.mavlinkInitial, .mavlinkInitial, fs⟩

def closeFile (s : State) : Option State :=
  match s.stageState with
  | .httpReceiving file =>
    let (fs, file) := file.close s.fs
    some { s with stageState := .httpReceiving file, fs := fs }
  | _ => none

def kFileNameSize : Nat := 32

/-- The name is stored in the first stage alone; the stage is entered in any case. -/
def transferIntoHttpInitial (s : State) (fileName : List UInt8) : State × EspErr :=
  let (s, result) : State × EspErr := match s.stage with
    | .mavlinkInitial =>
      if kFileNameSize ≤ fileName.length then (s, .noMem)
      else ({ s with stageState := .httpInitial fileName }, .ok)
    | _ => (s, .invalidState)
  ({ s with stage := .httpInitial }, result)

/-- The file name in the shared memory; `representation` are the characters a file has there. -/
def fileName (s : State) (representation : List UInt8) : List UInt8 :=
  match s.stageState with
  | .httpInitial fileName => fileName
  | _ => representation

def transferIntoHttpReceiving (s : State) (fileSize : Nat) (new : Allocation) (representation : List UInt8) :
    State × EspErr :=
  let (s, result) : State × EspErr := match s.stage with
    | .httpInitial =>
      let (fs, file) := tryOpenFileWriteBinary s.fs (s.fileName representation) fileSize new
      ({ s with stageState := .httpReceiving file, fs := fs }, if file.isValid then .ok else .fail)
    | _ => (s, .invalidState)
  ({ s with stage := .httpReceiving }, result)

def transferIntoMavlinkInitial (s : State) : Option State :=
  let closed := match s.stage with
    | .httpReceiving => s.closeFile
    | _ => some s
  closed.map ({ · with stage := .mavlinkInitial })

/-- The file is looked for in the last stage, where there always is one. -/
def onFileChunk (s : State) (buffer : List UInt8) : Option (State × EspErr) :=
  match s.stage with
  | .httpReceiving =>
    match s.stageState with
    | .httpReceiving file =>
      if file.isValid then
        let (fs, nWritten) := file.append s.fs buffer
        some ({ s with fs := fs }, if nWritten ≠ buffer.length then .fail else .ok)
      else some (s, .ok)
    | _ => none
  | _ => some (s, .invalidState)

end State

/-! ## The HTTP client -/

inductive HttpEvent where
  | error
  | onConnected
  /-- A header, what `new` would answer on it, and the bytes of a file where a name is looked for. -/
  | onHeader (key value : List UInt8) (new : Allocation) (representation : List UInt8)
  | onData (data : List UInt8)
  | onFinish
  | disconnected
  | other
  deriving DecidableEq, Repr

def kContentLength : List UInt8 :=
  [0x43, 0x6F, 0x6E, 0x74, 0x65, 0x6E, 0x74, 0x2D, 0x4C, 0x65, 0x6E, 0x67, 0x74, 0x68]

def isSpace (c : UInt8) : Bool := c == 0x20 || (9 ≤ c && c ≤ 13)

def isDigit (c : UInt8) : Bool := 0x30 ≤ c && c ≤ 0x39

/-- A number too large for an `int` is cut to the nearest. -/
def atoi (value : List UInt8) : Int :=
  let value := value.dropWhile isSpace
  let digits (value : List UInt8) : Int :=
    ((value.takeWhile isDigit).foldl (fun n c => 10 * n + (c.toNat - 0x30)) 0 : Nat)
  match value with
  | 0x2D :: value => max (-(2 ^ 31)) (-digits value)
  | 0x2B :: value => min (2 ^ 31 - 1) (digits value)
  | value => min (2 ^ 31 - 1) (digits value)

/-- The callback: without a chunk, a length is an announcement, and no length the end. -/
def onHttpFileDownloadChunk (s : State) (chunk : Option (List UInt8)) (chunkSize : Nat) (new : Allocation)
    (representation : List UInt8) : Option (State × EspErr) :=
  match chunk with
  | none =>
    if 0 < chunkSize then
      let (s, espErr) := s.transferIntoHttpReceiving chunkSize new representation
      if espErr ≠ .ok then s.transferIntoMavlinkInitial.map (·, espErr) else some (s, espErr)
    else s.transferIntoMavlinkInitial.map (·, .ok)
  | some chunk =>
    (s.onFileChunk chunk).bind fun (s, espErr) =>
      if espErr ≠ .ok then s.transferIntoMavlinkInitial.map (·, espErr) else some (s, espErr)

/-- A length is passed on as a `size_t`. -/
def httpDownloadFileOverHttpGetEventHandler (s : State) : HttpEvent → Option (State × EspErr)
  | .onFinish => onHttpFileDownloadChunk s none 0 ⟨0, []⟩ []
  | .onData data => onHttpFileDownloadChunk s (some data) data.length ⟨0, []⟩ []
  | .onConnected => some (s, .ok)
  | .onHeader key value new representation =>
    if key = kContentLength then
      onHttpFileDownloadChunk s none (Lib.uint32 (atoi value)) new representation
    else some (s, .ok)
  | .disconnected => some (s, .ok)
  | .error => some (s, .fail)
  | .other => some (s, .fail)

/-- What the client does: whether it could be set up, its events, and what it returns.
    What it makes of the answers to its events is in which comes next. -/
structure Download where
  initialized : Bool := true
  events : List HttpEvent := []
  espErr : EspErr := .ok
  deriving DecidableEq, Repr

def handleEvents (s : State) : List HttpEvent → Option State
  | [] => some s
  | e :: es => (httpDownloadFileOverHttpGetEventHandler s e).bind fun (s, _) => handleEvents s es

def httpDownloadFileOverHttpGetByUrl (s : State) (d : Download) : Option (State × EspErr) :=
  if !d.initialized then some (s, .fail)
  else (handleEvents s d.events).map (·, d.espErr)

/-! ## The command -/

def kMaxUrlLength : Nat := 128
def kFileNameMaxLength : Nat := 32

/-- `http://192.168.4.2:8000` -/
def kHttpPreamble : List UInt8 :=
  [0x68, 0x74, 0x74, 0x70, 0x3A, 0x2F, 0x2F, 0x31, 0x39, 0x32, 0x2E, 0x31, 0x36, 0x38, 0x2E, 0x34, 0x2E, 0x32, 0x3A,
    0x38, 0x30, 0x30, 0x30]

/-- `/dev/UavMonitor/show.bin` -/
def kLuaShow : List UInt8 :=
  [0x2F, 0x64, 0x65, 0x76, 0x2F, 0x55, 0x61, 0x76, 0x4D, 0x6F, 0x6E, 0x69, 0x74, 0x6F, 0x72, 0x2F, 0x73, 0x68, 0x6F,
    0x77, 0x2E, 0x62, 0x69, 0x6E]

def kFileNames : List (List UInt8) := [kLuaShow]

/-- A negative id is compared as an unsigned word, and is none of the files. -/
def AutopilotFile.tryGetNameById (aAutopilotFileId : Int) : Option (List UInt8) :=
  if kFileNames.length ≤ Lib.uint32 aAutopilotFileId then none else kFileNames[aAutopilotFileId.toNat]?

section
variable {F : Type} [SinglePrecision F]

def mavlinkMessageFetchFileGetFileId (c : CommandLong F) : Int := Lib.int32 (SinglePrecision.lround c.param1)

def tryEncodeRequestUrl (c : CommandLong F) : Option (List UInt8) :=
  -- `%s/%d.bin`
  let url := kHttpPreamble ++ [0x2F] ++ formatInt (mavlinkMessageFetchFileGetFileId c) ++ [0x2E, 0x62, 0x69, 0x6E]
  if kMaxUrlLength ≤ url.length then none else some url

def tryEncodeAutopilotFileName (c : CommandLong F) : Option (List UInt8) :=
  (AutopilotFile.tryGetNameById (Lib.int32 (SinglePrecision.lround c.param2))).bind fun fileName =>
    if kFileNameMaxLength ≤ fileName.length then none else some fileName

/-- A notification `OnFileBufferingFinished`: what is in the shared memory, and the file system then. -/
structure Notified where
  stageState : StageState
  fs : SingleBufferRamFileSystem
  deriving DecidableEq, Repr

/-- What there is around the service: whether there is a file system, what the client
    does, and whether somebody keeps the file it is notified of. -/
structure Env where
  bufferedFileTransferInstance : Bool := true
  download : Download := {}
  kept : Bool := false
  deriving DecidableEq, Repr

structure Fetched (F : Type) where
  state : State
  message : Message F
  responses : List (Message F)
  notified : List Notified := []
  /-- The URLs requested. -/
  requested : List (List UInt8) := []
  deriving DecidableEq

/-- The result is not looked at: every answer says FAILED. -/
def handlePackResponse (m : Message F) (_ : MavResult) : Message F :=
  .pack Globals.getCompId (.commandAck (.makeFrom m MavCmd.user2 .failed))

def answered (s : State) (m : Message F) (result : MavResult) : Fetched F :=
  let m := handlePackResponse m result
  { state := s, message := m, responses := [m] }

/-- The last pointer to the file is released unless it is kept; its deleter closes the file. -/
def notify (s : State) (kept : Bool) : Option State := if kept then some s else s.closeFile

def onCommandLongFetchFile (s : State) (env : Env) (m : Message F) (c : CommandLong F) : Option (Fetched F) :=
  match tryEncodeRequestUrl c with
  | none => some (answered s m .failed)
  | some url =>
    if !env.bufferedFileTransferInstance then some (answered s m .failed)
    else match tryEncodeAutopilotFileName c with
      | none => some (answered s m .failed)
      | some fileName =>
        let (s, _) := s.transferIntoHttpInitial fileName
        (httpDownloadFileOverHttpGetByUrl s env.download).bind fun (s, espErr) =>
          if espErr ≠ .ok then some { answered s m .failed with requested := [url] }
          else
            let notified := [⟨s.stageState, s.fs⟩]
            (notify s env.kept).bind fun s =>
              s.transferIntoMavlinkInitial.map fun s =>
                { answered s m .accepted with notified, requested := [url] }

/-- Only a COMMAND_LONG is looked at. -/
def process (s : State) (env : Env) (m : Message F) : Option (Fetched F × Microservice.Ret) :=
  match m.body with
  | .commandLong c =>
    if c.isFor Globals.getCompId then
      if c.command = MavCmd.user2 then (onCommandLongFetchFile s env m c).map (·, .response)
      else some ({ state := s, message := m, responses := [] }, .ignored)
    else some ({ state := s, message := m, responses := [] }, .ignored)
  | _ => some ({ state := s, message := m, responses := [] }, .ignored)

end

end Esp32Cam.Mav.BufferedFileTransfer
