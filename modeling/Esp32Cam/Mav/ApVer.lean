/-
  Esp32Cam.Mav.ApVer — the microservice that asks the autopilot for its version.

  It listens to the autopilot: a HEARTBEAT is answered with the request of
  AUTOPILOT_VERSION until one has been seen. What AUTOPILOT_VERSION says is noted down,
  and the message goes on to the others.
-/

import Esp32Cam.Mav.Microservice

namespace Esp32Cam.Mav.ApVer

open Turn

structure Version where
  swMajor : UInt8 := 0
  swMinor : UInt8 := 0
  swRev : UInt32 := 0
  swCommit : UInt32 := 0
  deriving DecidableEq, Repr

structure State where
  version : Version := {}
  updated : Bool := false
  deriving DecidableEq, Repr

/-- The four bytes from `i` on as a word, the least significant byte first. -/
def wordAt (bytes : Vector UInt8 8) (i : Nat) : UInt32 :=
  ((bytes.toList.drop i).take 4).foldr (fun b word => word * 256 + b.toUInt32) 0

def versionOf (m : AutopilotVersion) : Version where
  swMajor := ((m.flightSwVersion &&& 0xFF00) >>> 8).toUInt8
  swMinor := (m.flightSwVersion &&& 0xFF).toUInt8
  swRev := wordAt m.flightCustomVersion 4
  swCommit := wordAt m.flightCustomVersion 0

variable {F : Type} [SinglePrecision F]

def zero : F := SinglePrecision.ofInt 0

/-- The request of AUTOPILOT_VERSION, for whom the message is from. -/
def requestVersion (m : Message F) : CommandLong F where
  targetSystem := m.sysid
  targetComponent := m.compid
  command := MavCmd.requestMessage
  confirmation := 0
  param1 := SinglePrecision.ofInt MsgId.autopilotVersion
  param2 := zero
  param3 := zero
  param4 := zero
  param5 := zero
  param6 := zero
  param7 := zero

def process (s : State) (m : Message F) : State × Turn F × Microservice.Ret :=
  let t : Turn F := { message := m }
  if Globals.getCompidAutopilot = m.compid then
    match m.body with
    | .heartbeat =>
      if !s.updated then (s, t.respond Globals.getCompId (.commandLong (requestVersion m)), .response)
      else (s, t, .ignored)
    | .autopilotVersion v => ({ version := versionOf v, updated := true }, t, .ignored)
    | _ => (s, t, .ignored)
  else (s, t, .ignored)

theorem process_lawful (s : State) (m : Message F) : Lawful m (process s m).2.1 (process s m).2.2 := by
  unfold process
  dsimp only
  split
  · split
    · split
      · exact (answers_respond _ _ _).lawful
      · exact lawful_ignored m
    · exact lawful_ignored m
    · exact lawful_ignored m
  · exact lawful_ignored m

/-- Once the version is known, every message goes on. -/
theorem process_ignored {s : State} (h : s.updated = true) (m : Message F) :
    (process s m).1.updated = true ∧ (process s m).2 = ({ message := m }, .ignored) := by
  unfold process
  dsimp only
  rw [h]
  split
  · split
    · exact ⟨h, rfl⟩
    · exact ⟨rfl, rfl⟩
    · exact ⟨h, rfl⟩
  · exact ⟨h, rfl⟩

end Esp32Cam.Mav.ApVer
