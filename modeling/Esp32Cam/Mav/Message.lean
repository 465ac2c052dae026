/-
  Esp32Cam.Mav.Message — MAVLink messages as the microservices see them.

  A `Message` is what is left of `mavlink_message_t` once it is decoded: who has sent it,
  and its fields. Decoding reads the fields, encoding builds the message anew. A
  COMMAND_INT is read as a COMMAND_LONG (`MavlinkCommandLong.makeFrom`), without the
  field it does not have.

  What the processor does with floating-point numbers is the class `SinglePrecision`;
  nothing is assumed of it.
-/

import Esp32Cam.Mav.GsNetwork

namespace Esp32Cam.Mav

/-- `float`, with the conversions and comparisons the code makes. -/
class SinglePrecision (F : Type) where
  /-- `static_cast<int>` -/
  toInt : F → Int
  /-- `static_cast<std::uint32_t>` -/
  toUnsigned : F → Nat
  lround : F → Int
  ofInt : Int → F
  /-- `Ut::Al::scale`, from 0 to a size, behind its assertion. -/
  scale : F → Int → Int
  lt : F → F → Bool
  le : F → F → Bool

/-- Numbers that are whole, and stay so. -/
instance : SinglePrecision Int where
  toInt n := n
  toUnsigned n := n.toNat
  lround n := n
  ofInt n := n
  scale n size := n * size
  lt m n := m < n
  le m n := m ≤ n

/-- `%d`: the decimal digits of a number, a sign before them. -/
def formatInt (n : Int) : List UInt8 :=
  (if n < 0 then [0x2D] else []) ++ (Nat.toDigits 10 n.natAbs).map fun c => UInt8.ofNat c.toNat

namespace Globals

/-- `MAV_COMP_ID_CAMERA`. -/
def getCompIdCamera : UInt8 := 100
/-- `MAV_COMP_ID_CAMERA2`. -/
def getCompIdTracker : UInt8 := 101

end Globals

/-! ## Numbers of the protocol -/

namespace MavCmd

def setMessageInterval : UInt16 := 511
def requestMessage : UInt16 := 512
def imageStartCapture : UInt16 := 2000
def cameraTrackRectangle : UInt16 := 2005
def cameraStopTracking : UInt16 := 2010
def videoStartCapture : UInt16 := 2500
def videoStopCapture : UInt16 := 2501
def user2 : UInt16 := 31011

end MavCmd

namespace MsgId

def autopilotVersion : Nat := 148
def cameraInformation : Nat := 259
def cameraCaptureStatus : Nat := 262
def cameraImageCaptured : Nat := 263
def cameraTrackingImageStatus : Nat := 275
def wifiConfigAp : Nat := 299

end MsgId

inductive MavResult where
  | accepted | temporarilyRejected | denied | unsupported | failed
  deriving DecidableEq, Repr

def MavResult.code : MavResult → Nat
  | .accepted => 0 | .temporarilyRejected => 1 | .denied => 2 | .unsupported => 3 | .failed => 4

/-! ## Messages -/

structure CommandLong (F : Type) where
  targetSystem : UInt8
  targetComponent : UInt8
  command : UInt16
  confirmation : UInt8
  param1 : F
  param2 : F
  param3 : F
  param4 : F
  param5 : F
  param6 : F
  param7 : F
  deriving DecidableEq, Repr

structure CommandInt (F : Type) where
  targetSystem : UInt8
  targetComponent : UInt8
  command : UInt16
  param1 : F
  param2 : F
  param3 : F
  param4 : F
  x : Int
  y : Int
  z : F
  deriving DecidableEq, Repr

structure CommandAck where
  targetSystem : UInt8
  targetComponent : UInt8
  command : UInt16
  result : MavResult
  deriving DecidableEq, Repr

/-- The fields `ssid` and `password` have 32 and 64 bytes. -/
structure WifiConfigAp where
  ssid : List UInt8
  password : List UInt8
  mode : UInt8 := 0
  response : UInt8 := 0
  deriving DecidableEq, Repr

structure CameraInformation where
  timeBootMs : UInt32
  flags : UInt32
  resolutionH : Int
  resolutionV : Int
  vendorName : List UInt8
  modelName : List UInt8
  deriving DecidableEq, Repr

structure CameraImageCaptured where
  timeBootMs : UInt32
  imageIndex : Nat
  captureResult : MavResult
  fileUrl : List UInt8
  deriving DecidableEq, Repr

structure CameraCaptureStatus where
  timeBootMs : UInt32
  imageCount : Int
  videoStatus : Bool
  deriving DecidableEq, Repr

structure AutopilotVersion where
  flightCustomVersion : Vector UInt8 8
  flightSwVersion : UInt32
  deriving DecidableEq, Repr

inductive Body (F : Type) where
  | heartbeat
  | autopilotVersion (m : AutopilotVersion)
  | commandLong (m : CommandLong F)
  | commandInt (m : CommandInt F)
  | commandAck (m : CommandAck)
  | wifiConfigAp (m : WifiConfigAp)
  | mavGsNetwork (m : GsNetwork.Message)
  | fileTransferProtocol (m : FileTransferProtocol)
  | cameraInformation (m : CameraInformation)
  | cameraImageCaptured (m : CameraImageCaptured)
  | cameraCaptureStatus (m : CameraCaptureStatus)
  | other (msgid : Nat)
  deriving DecidableEq

structure Message (F : Type) where
  sysid : UInt8
  compid : UInt8
  body : Body F
  deriving DecidableEq

variable {F : Type}

def Message.pack (compid : UInt8) (body : Body F) : Message F := ⟨Globals.getSysId, compid, body⟩

def CommandAck.makeFrom (m : Message F) (command : UInt16) (result : MavResult) : CommandAck :=
  { targetSystem := m.sysid, targetComponent := m.compid, command, result }

/-- A COMMAND_INT has no `confirmation`: what is found in its place is `uninitialized`. -/
def CommandLong.ofInt [SinglePrecision F] (uninitialized : UInt8) (m : CommandInt F) : CommandLong F where
  targetSystem := m.targetSystem
  targetComponent := m.targetComponent
  command := m.command
  confirmation := uninitialized
  param1 := m.param1
  param2 := m.param2
  param3 := m.param3
  param4 := m.param4
  param5 := SinglePrecision.ofInt m.x
  param6 := SinglePrecision.ofInt m.y
  param7 := m.z

/-- The command of a message, where it is one of the two command messages. -/
def Body.command [SinglePrecision F] (uninitialized : UInt8) : Body F → Option (CommandLong F)
  | .commandLong m => some m
  | .commandInt m => some (CommandLong.ofInt uninitialized m)
  | _ => none

def CommandLong.isFor (c : CommandLong F) (compid : UInt8) : Bool :=
  c.targetComponent == compid && c.targetSystem == Globals.getSysId

end Esp32Cam.Mav
