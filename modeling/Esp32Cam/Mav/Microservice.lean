/-
  Esp32Cam.Mav.Microservice — what a microservice may do with a message.

  The message is handed over in the buffer the response is packed into. A `Turn` is what
  has happened to it: the buffer, the messages the callback has been called with, and the
  commands that have been carried out outside the microservice (`Carried`).

  `Lawful` is the contract: a message that is not the microservice's is left alone, for
  the next one to see, and one that is answered has an answer.
-/

import Esp32Cam.Mav.BftFtpClient
import Esp32Cam.Mav.Message

namespace Esp32Cam.Mav

inductive FieldWrite where
  | staPassword (password : List UInt8)
  | staStringIdentifier (ssid : List UInt8)
  | staInitialized (initialized : Bool)
  | apStringIdentifier (ssid : List UInt8)
  | apPassword (password : List UInt8)
  | trackingRoi (rect : List UInt16)
  | trackingInitialized (initialized : Bool)
  deriving DecidableEq, Repr

/-- What a microservice does outside itself on a message. -/
inductive Carried where
  | fieldWrite (w : FieldWrite)
  | wifiStaConnect (ssid password : List UInt8)
  | wifiDisconnect
  | sdFatInit
  | recFrameStart (name : List UInt8)
  | recordStart (name : List UInt8)
  | recordStop
  | trackingUpdates (enabled : Bool)
  | sockets (m : GsNetwork.Message)
  | transferUpdate (e : Bft.TransferUpdateEvent)
  | httpGet (url : List UInt8)
  | fileBufferingFinished
  deriving DecidableEq

/-- What has happened to a message: what the buffer holds, and what the callback has been called with. -/
structure Turn (F : Type) where
  message : Message F
  responses : List (Message F) := []
  commands : List Carried := []

variable {F : Type}

namespace Turn

def carryOut (t : Turn F) (c : Carried) : Turn F := { t with commands := t.commands ++ [c] }

def respond (t : Turn F) (compid : UInt8) (body : Body F) : Turn F :=
  { t with message := .pack compid body, responses := t.responses ++ [.pack compid body] }

def acknowledge (t : Turn F) (compid : UInt8) (command : UInt16) (result : MavResult) : Turn F :=
  t.respond compid (.commandAck (.makeFrom t.message command result))

def Answers (t : Turn F) (ret : Microservice.Ret) : Prop := ret = .response ∧ t.responses ≠ []

structure Lawful (m : Message F) (t : Turn F) (ret : Microservice.Ret) : Prop where
  ignored : ret = .ignored → t.message = m ∧ t.responses = [] ∧ t.commands = []
  response : ret = .response → t.responses ≠ []

theorem answers_respond (t : Turn F) (compid : UInt8) (body : Body F) : Answers (t.respond compid body) .response := by
  refine ⟨rfl, ?_⟩
  simp only [respond, ne_eq, List.append_eq_nil_iff, List.cons_ne_nil, and_false, not_false_eq_true]

theorem answers_acknowledge (t : Turn F) (compid : UInt8) (command : UInt16) (result : MavResult) :
    Answers (t.acknowledge compid command result) .response := answers_respond t compid _

variable {m : Message F} {t : Turn F}

theorem lawful_ignored (m : Message F) : Lawful m { message := m } .ignored where
  ignored _ := ⟨rfl, rfl, rfl⟩
  response h := by cases h

theorem Answers.lawful {ret : Microservice.Ret} (h : Answers t ret) : Lawful m t ret where
  ignored hret := by rw [h.1] at hret; cases hret
  response _ := h.2

theorem not_lawful_of_no_response (h : t.responses = []) : ¬ Lawful m t .response := fun hl => hl.response rfl h

theorem not_lawful_of_ignored (h : t.responses ≠ []) : ¬ Lawful m t .ignored := fun hl => h (hl.ignored rfl).2.1

end Turn

end Esp32Cam.Mav
