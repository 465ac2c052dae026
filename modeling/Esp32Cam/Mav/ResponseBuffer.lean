/-
  Esp32Cam.Mav.ResponseBuffer — the buffer the responses to a message are packed into.

  The dispatcher keeps one buffer of the size of a decoded message. Whenever a microservice
  calls back, the message is marshalled behind what is in it already; the marshalling is
  not told where the buffer ends. A command is answered with its acknowledgement and at
  most one more message, and a microservice that leaves the message to the others has
  packed nothing, the tracker's acknowledgement apart; whoever is handed that one answers
  nothing (`after_the_tracker`). So there are 22 bytes and 267 at most, in 291
  (`response_buffer_never_overflows`).
-/

import Mathlib.Data.List.DropRight
import Esp32Cam.Lib.Memory
import Esp32Cam.Mav.Aggregate

namespace Esp32Cam.Mav

open Esp32Cam.Lib

variable {F : Type}

/-! ## Lengths -/

/-- `MAVLINK_NUM_NON_PAYLOAD_BYTES`: the header and the checksum of a message that is not signed. -/
def kNumNonPayloadBytes : Nat := 12

/-- The payload of a message before the zeros at its end are cut off. -/
def Body.maxPayloadLen : Body F → Nat
  | .commandAck _ => 10
  | _ => 255

/-- `mavlink_msg_to_send_buffer`. -/
structure Marshalling (F : Type) where
  msgToSendBuffer : Message F → List UInt8
  length_le : ∀ m, (msgToSendBuffer m).length ≤ m.body.maxPayloadLen + kNumNonPayloadBytes

@[simp] theorem maxPayloadLen_commandAck (a : CommandAck) : (Body.commandAck a : Body F).maxPayloadLen = 10 := rfl

@[simp] theorem pack_body (compid : UInt8) (body : Body F) : (Message.pack compid body).body = body := rfl

theorem maxPayloadLen_le (body : Body F) : body.maxPayloadLen ≤ 255 := by
  cases body <;> simp [Body.maxPayloadLen]

/-! ## The buffer -/

/-- `sizeof(mavlink_message_t)`. -/
def kSizeofMavlinkMessage : Nat := 291

structure Resp where
  buffer : List UInt8
  size : Nat
  length_buffer : buffer.length = kSizeofMavlinkMessage

/-- `Buffer{resp.buffer, sizeof(resp.buffer)}.asSlice(resp.size)`, which is asserted to begin in the buffer. -/
def Resp.asSlice (r : Resp) : Option Nat := if r.size ≤ kSizeofMavlinkMessage then some r.size else none

/-- `Marshalling::push`: the message is written from `pos` on, however much room there is.
    A write past the buffer has no result. -/
def Resp.push (r : Resp) (pos : Nat) (bytes : List UInt8) : Option Resp :=
  if h : pos + bytes.length ≤ kSizeofMavlinkMessage then
    some { buffer := splice r.buffer pos bytes
           size := r.size
           length_buffer := (length_splice (r.length_buffer.symm ▸ h)).trans r.length_buffer }
  else none

def Resp.onResponse (lib : Marshalling F) (r : Resp) (m : Message F) : Option Resp :=
  r.asSlice.bind fun pos =>
    let bytes := lib.msgToSendBuffer m
    (r.push pos bytes).map fun r => { r with size := r.size + bytes.length }

def Resp.onResponses (lib : Marshalling F) (r : Resp) (ms : List (Message F)) : Option Resp :=
  ms.foldlM (Resp.onResponse lib) r

/-- `Dispatcher::onSubscription`: a delayed message is written from the beginning on. -/
def Resp.onSubscription (lib : Marshalling F) (r : Resp) (m : Message F) : Option Resp :=
  r.push 0 (lib.msgToSendBuffer m)

def packedLen (ms : List (Message F)) : Nat := (ms.map fun m => m.body.maxPayloadLen + kNumNonPayloadBytes).sum

section
variable {lib : Marshalling F} {r : Resp}

@[simp] theorem packedLen_append (ms ms' : List (Message F)) : packedLen (ms ++ ms') = packedLen ms + packedLen ms' := by
  simp [packedLen]

@[simp] theorem packedLen_singleton (m : Message F) : packedLen [m] = m.body.maxPayloadLen + kNumNonPayloadBytes := by
  simp [packedLen]

theorem packedLen_cons (m : Message F) (ms : List (Message F)) :
    packedLen (m :: ms) = m.body.maxPayloadLen + kNumNonPayloadBytes + packedLen ms := by
  simp [packedLen]

/-- A message that has been packed is behind the others. -/
theorem onResponse_some {m : Message F} {r' : Resp} (h : r.onResponse lib m = some r') :
    r'.size = r.size + (lib.msgToSendBuffer m).length ∧
      r'.buffer.take r'.size = r.buffer.take r.size ++ lib.msgToSendBuffer m := by
  obtain ⟨pos, hslice, h⟩ := Option.bind_eq_some_iff.mp h
  obtain ⟨r₁, hpush, rfl⟩ := Option.map_eq_some_iff.mp h
  obtain ⟨hbegin, hpos⟩ := Option.ite_none_right_eq_some.mp hslice
  obtain rfl := Option.some_inj.mp hpos
  obtain ⟨_, hr₁⟩ := Option.dite_none_right_eq_some.mp hpush
  obtain rfl := Option.some_inj.mp hr₁
  have hroom : r.size ≤ r.buffer.length := by rw [r.length_buffer]; exact hbegin
  exact ⟨rfl, take_splice _ _ _ hroom⟩

/-- Where there is room for a message, it is packed. -/
theorem onResponse_isSome {m : Message F} (h : r.size + (lib.msgToSendBuffer m).length ≤ kSizeofMavlinkMessage) :
    ∃ r', r.onResponse lib m = some r' := by
  have hslice : r.asSlice = some r.size := if_pos (by omega)
  simp [Resp.onResponse, hslice, Resp.push, h]

theorem onResponses_some {ms : List (Message F)} {r' : Resp} (h : r.onResponses lib ms = some r') :
    r'.size = r.size + (ms.flatMap lib.msgToSendBuffer).length ∧
      r'.buffer.take r'.size = r.buffer.take r.size ++ ms.flatMap lib.msgToSendBuffer := by
  induction ms generalizing r with
  | nil =>
    obtain rfl := Option.some_inj.mp h
    exact ⟨rfl, (List.append_nil _).symm⟩
  | cons m ms ih =>
    rw [Resp.onResponses, List.foldlM_cons] at h
    obtain ⟨r₁, hr₁, hrest⟩ := Option.bind_eq_some_iff.mp h
    obtain ⟨hsize₁, htake₁⟩ := onResponse_some hr₁
    obtain ⟨hsize, htake⟩ := ih hrest
    refine ⟨?_, ?_⟩
    · rw [hsize, hsize₁, List.flatMap_cons, List.length_append, Nat.add_assoc]
    · rw [htake, htake₁, List.flatMap_cons, List.append_assoc]

theorem onResponses_isSome {ms : List (Message F)} (h : r.size + packedLen ms ≤ kSizeofMavlinkMessage) :
    ∃ r', r.onResponses lib ms = some r' ∧ r'.size ≤ r.size + packedLen ms := by
  induction ms generalizing r with
  | nil => exact ⟨r, rfl, Nat.le_refl _⟩
  | cons m ms ih =>
    have hm := lib.length_le m
    rw [packedLen_cons] at h
    obtain ⟨r₁, hr₁⟩ := @onResponse_isSome _ lib r m (by omega)
    obtain ⟨hsize₁, -⟩ := onResponse_some hr₁
    obtain ⟨r', hr', hsize'⟩ := ih (r := r₁) (by omega)
    refine ⟨r', ?_, ?_⟩
    · rw [Resp.onResponses, List.foldlM_cons, hr₁]
      exact hr'
    · rw [packedLen_cons]
      omega

/-- A delayed message is alone in the buffer. -/
theorem onSubscription_isSome (lib : Marshalling F) (r : Resp) (m : Message F) : (r.onSubscription lib m).isSome := by
  have hm := lib.length_le m
  have hbody := maxPayloadLen_le m.body
  have hroom : (lib.msgToSendBuffer m).length ≤ kSizeofMavlinkMessage := by
    simp only [kNumNonPayloadBytes, kSizeofMavlinkMessage] at hm ⊢
    omega
  simp [Resp.onSubscription, Resp.push, hroom]

end

/-! ## What one microservice packs -/

/-- An acknowledgement and the longest of the messages. -/
def kPairLen : Nat := 10 + kNumNonPayloadBytes + (255 + kNumNonPayloadBytes)

def Turn.Short (t : Turn F) : Prop := packedLen t.responses ≤ kPairLen

namespace Turn

variable {t : Turn F}

theorem short_of_nothing (h : t.responses = []) : t.Short := by
  rw [Short, h]
  exact Nat.zero_le _

theorem short_respond (compid : UInt8) (body : Body F) (h : t.responses = []) : (t.respond compid body).Short := by
  have hbody := maxPayloadLen_le body
  simp only [Short, respond, h, List.nil_append, packedLen_singleton, pack_body, kPairLen]
  omega

theorem short_acknowledge (compid : UInt8) (command : UInt16) (result : MavResult) (h : t.responses = []) :
    (t.acknowledge compid command result).Short := short_respond compid _ h

/-- The acknowledgement, and the answer. -/
theorem short_acknowledge_respond (compid compid' : UInt8) (command : UInt16) (result : MavResult) (body : Body F)
    (h : t.responses = []) : ((t.acknowledge compid command result).respond compid' body).Short := by
  have hbody := maxPayloadLen_le body
  simp only [Short, acknowledge, respond, h, List.nil_append, packedLen_append, packedLen_singleton, pack_body,
    maxPayloadLen_commandAck, kPairLen]
  omega

end Turn

open Turn

section
variable {t : Turn F}

/-! ### The microservices one by one -/

theorem Wifi.processConfigAp_short {env : Wifi.Env} {w : WifiConfigAp} (h : t.responses = []) :
    (Wifi.processConfigAp env t w).1.Short := by
  unfold Wifi.processConfigAp
  split
  · split
    · unfold Wifi.processConfigApConnect
      dsimp only
      split <;> exact short_respond _ _ h
    · exact short_respond _ _ h
    · exact short_respond _ _ h
    · exact short_respond _ _ h
  · split
    · exact short_respond _ _ h
    · split
      · dsimp only
        unfold Wifi.processConfigApSetSta
        split
        · exact short_respond _ _ h
        · exact short_of_nothing h
      · exact short_of_nothing h

variable [SinglePrecision F]

theorem Wifi.process_short (env : Wifi.Env) (uninitialized : UInt8) (m : Message F) :
    (Wifi.process env uninitialized m).1.Short := by
  unfold Wifi.process
  dsimp only
  split
  · exact processConfigAp_short rfl
  · split
    · exact short_of_nothing rfl
    · split
      · unfold Wifi.processCmdRequestMessage
        split
        · dsimp only
          split
          · exact short_acknowledge_respond _ _ _ _ _ rfl
          · split
            · exact short_acknowledge_respond _ _ _ _ _ rfl
            · exact short_of_nothing rfl
        · exact short_of_nothing rfl
      · exact short_of_nothing rfl

theorem Wifi.processCmdRequestMessage_ignored {env : Wifi.Env} {c : CommandLong F}
    (h : (Wifi.processCmdRequestMessage env t c).2 = .ignored) : (Wifi.processCmdRequestMessage env t c).1 = t := by
  unfold Wifi.processCmdRequestMessage at h ⊢
  by_cases hmsgid : SinglePrecision.toInt c.param1 = MsgId.wifiConfigAp
  · rw [if_pos hmsgid] at h
    dsimp only at h
    split at h
    · cases h
    · split at h
      · cases h
      · cases h
  · rw [if_neg hmsgid]

/-- What is not the microservice's is left alone. -/
theorem Wifi.process_ignored {env : Wifi.Env} {uninitialized : UInt8} {m : Message F}
    (h : (Wifi.process env uninitialized m).2 = .ignored) :
    (Wifi.process env uninitialized m).1.message = m ∧ (Wifi.process env uninitialized m).1.responses = [] := by
  unfold Wifi.process at h ⊢
  dsimp only at h ⊢
  split
  · rename_i w hbody
    rw [hbody] at h
    dsimp only at h
    by_cases hmode : w.mode = kModeUndefined ∨ w.mode = kModeAp ∨ w.mode = kModeStation
    · rw [(processConfigAp_answers hmode).1] at h
      cases h
    · rw [processConfigAp_silent hmode] at h
      cases h
  · split
    · exact ⟨rfl, rfl⟩
    · split
      · rename_i c hc hfor
        simp only [hc, hfor, and_self, if_true] at h
        rw [processCmdRequestMessage_ignored h]
        exact ⟨rfl, rfl⟩
      · exact ⟨rfl, rfl⟩

omit [SinglePrecision F] in
theorem GsNetwork.turn_short {closeCliDisconnect : Bool} {s s' : GsNetwork.State} {os : Sock.Os} {m : Mav.Message F}
    {t : Turn F} {ret : Microservice.Ret} (h : GsNetwork.turn closeCliDisconnect s os m = some (s', t, ret)) : t.Short := by
  unfold GsNetwork.turn at h
  split at h
  · obtain ⟨⟨ret', done⟩, -, hdone⟩ := Option.map_eq_some_iff.mp h
    cases done with
    | none =>
      cases hdone
      exact short_of_nothing rfl
    | some done =>
      cases hdone
      exact short_respond _ _ rfl
  · cases h
    exact short_of_nothing rfl

theorem Camera.processMakeShot_responses (h : Camera.History) (env : Camera.Env) (t : Turn F) (c : CommandLong F) :
    (Camera.processMakeShot h env t c).2.1.responses = t.responses := by
  unfold Camera.processMakeShot
  dsimp only
  split
  · split
    · cases env.recFrame <;> rfl
    · rfl
  · rfl

theorem Camera.processCmdImageStartCapture_short {h : Camera.History} {env : Camera.Env} {c : CommandLong F}
    (ht : t.responses = []) : (Camera.processCmdImageStartCapture h env t c).2.1.Short := by
  have hshot := (processMakeShot_responses h env t c).trans ht
  unfold Camera.processCmdImageStartCapture
  dsimp only
  split
  · exact short_acknowledge_respond _ _ _ _ _ hshot
  · exact short_acknowledge _ _ _ hshot

theorem Camera.processCommandLong_short {h : Camera.History} {env : Camera.Env} {c : CommandLong F}
    (ht : t.responses = []) : (Camera.processCommandLong h env t c).2.1.Short := by
  unfold Camera.processCommandLong
  split
  · dsimp only
    split
    · unfold Camera.processRequestMessageCameraInformation
      dsimp only
      split
      · exact short_acknowledge_respond _ _ _ _ _ ht
      · exact short_acknowledge _ _ _ ht
    · split
      · unfold Camera.processRequestMessageCameraImageCaptured
        split
        · exact short_acknowledge_respond _ _ _ _ _ ht
        · exact short_acknowledge _ _ _ ht
      · split
        · exact short_acknowledge_respond _ _ _ _ _ ht
        · exact short_of_nothing ht
  · split
    · exact processCmdImageStartCapture_short ht
    · split
      · unfold Camera.processCmdVideoStartCapture
        dsimp only
        split
        · exact short_acknowledge _ _ _ ht
        · split
          · split
            · exact short_acknowledge _ _ _ ht
            · exact short_acknowledge _ _ _ ht
          · exact short_acknowledge _ _ _ ht
      · split
        · unfold Camera.processCmdVideoStopCapture
          split
          · split
            · exact short_acknowledge _ _ _ ht
            · exact short_acknowledge _ _ _ ht
          · exact short_acknowledge _ _ _ ht
        · exact short_of_nothing ht

theorem Camera.process_short (h : Camera.History) (env : Camera.Env) (uninitialized : UInt8) (m : Message F) :
    (Camera.process h env uninitialized m).2.1.Short := by
  unfold Camera.process
  split
  · exact processCommandLong_short rfl
  · exact short_of_nothing rfl

theorem ApVer.process_short (s : ApVer.State) (m : Message F) : (ApVer.process s m).2.1.Short := by
  unfold ApVer.process
  dsimp only
  split
  · split
    · split
      · exact short_respond _ _ rfl
      · exact short_of_nothing rfl
    · exact short_of_nothing rfl
    · exact short_of_nothing rfl
  · exact short_of_nothing rfl

/-- The tracker packs an acknowledgement or nothing, and the acknowledgement is what it leaves in the message's place. -/
theorem Tracking.process_acknowledges {s : Tracking.State} {env : Tracking.Env} {uninitialized : UInt8} {m : Message F}
    {r : Tracking.State × Turn F × Microservice.Ret} (h : Tracking.process s env uninitialized m = some r) :
    (r.2.1.message = m ∧ r.2.1.responses = []) ∨
      ∃ a, r.2.1.message.body = .commandAck a ∧ r.2.1.responses = [r.2.1.message] := by
  unfold Tracking.process at h
  dsimp only at h
  split at h
  · obtain rfl := Option.some_inj.mp h
    exact Or.inl ⟨rfl, rfl⟩
  · split at h
    · split at h
      · obtain rfl := Option.some_inj.mp h
        unfold Tracking.processCmdSetMessageInterval
        dsimp only
        split
        · split
          · exact Or.inr ⟨_, rfl, rfl⟩
          · split
            · exact Or.inr ⟨_, rfl, rfl⟩
            · exact Or.inr ⟨_, rfl, rfl⟩
        · exact Or.inr ⟨_, rfl, rfl⟩
      · split at h
        · obtain ⟨t', result, hnothing, -, hmessage, hresponses⟩ := Tracking.processCmdCameraTrackRectangle_answers h
          rw [hresponses, hmessage]
          refine Or.inr ⟨_, rfl, ?_⟩
          simp only [acknowledge, respond, hnothing, List.nil_append]
        · split at h
          · obtain rfl := Option.some_inj.mp h
            exact Or.inr ⟨_, rfl, rfl⟩
          · obtain rfl := Option.some_inj.mp h
            exact Or.inl ⟨rfl, rfl⟩
    · obtain rfl := Option.some_inj.mp h
      exact Or.inl ⟨rfl, rfl⟩

end

/-- A message to the client is followed by one of its own at most. -/
theorem BftFtpClient.process_sends (c : BftFtpClient) (m : MavlinkMessage) :
    ∃ ws, (c.process m).1.sent = c.sent ++ ws ∧ ws.length ≤ 1 := by
  cases m with
  | other msgid => exact ⟨[], (List.append_nil _).symm, Nat.zero_le _⟩
  | fileTransferProtocol m =>
    have htakes := process_takes c m
    generalize (c.process (.fileTransferProtocol m)).1 = c' at htakes ⊢
    cases htakes with
    | nothing | stopped => exact ⟨[], (List.append_nil _).symm, Nat.zero_le _⟩
    | granted => exact ⟨_, sessionGranted_sent c m, Nat.le_refl _⟩
    | acknowledged => exact ⟨_, writeAcknowledged_sent c m, Nat.le_refl _⟩
    | refused => exact ⟨_, writeRefused_sent c m, Nat.le_refl _⟩
    | denied | closed | notClosed => exact ⟨[], (List.append_nil _).symm, Nat.zero_le _⟩

theorem BftFtpClient.turn_short (c : BftFtpClient) (m : Message F) : (c.turn m).2.1.Short := by
  obtain ⟨ws, hsent, hlength⟩ := process_sends c m.toMavlink
  simp only [Short, BftFtpClient.turn, hsent, List.drop_left]
  cases ws with
  | nil => exact Nat.zero_le _
  | cons w ws =>
    obtain rfl : ws = [] := List.eq_nil_of_length_eq_zero (by simp only [List.length_cons] at hlength; omega)
    have hbody := maxPayloadLen_le (Message.ofMavlink (F := F) w).body
    simp only [List.map_cons, List.map_nil, packedLen_singleton, kPairLen]
    omega

theorem BufferedFileTransfer.turn_short [SinglePrecision F] {s s' : BufferedFileTransfer.State}
    {env : BufferedFileTransfer.Env} {m : Message F} {t : Turn F} {ret : Microservice.Ret}
    (h : BufferedFileTransfer.turn s env m = some (s', t, ret)) : t.Short := by
  obtain ⟨⟨f, ret'⟩, hproc, hf⟩ := Option.map_eq_some_iff.mp h
  cases hf
  unfold BufferedFileTransfer.process at hproc
  split at hproc
  · split at hproc
    · split at hproc
      · obtain ⟨f', hcommand, hf'⟩ := Option.map_eq_some_iff.mp hproc
        cases hf'
        simp only [Short, BufferedFileTransfer.onCommand_responses hcommand, packedLen_singleton,
          BufferedFileTransfer.ackOf, pack_body, maxPayloadLen_commandAck, kPairLen]
        omega
      · cases hproc
        exact short_of_nothing rfl
    · cases hproc
      exact short_of_nothing rfl
  · cases hproc
    exact short_of_nothing rfl

/-! ## One after the other -/

namespace Mic

variable [SinglePrecision F]

/-- What the microservices pack behind what is in the buffer. A microservice that has no
    further state packs nothing and is the last. -/
def packAll (lib : Marshalling F) (s : State) (env : Env) (m : Message F) (resp : Resp) : List Mic → Option Resp
  | [] => some resp
  | mic :: mics =>
    match mic.process s env m with
    | none => some resp
    | some (s, t, ret) => (resp.onResponses lib t.responses).bind fun resp =>
      if ret ≠ .ignored then some resp else packAll lib s env t.message resp mics

/-- On the message, the microservices pack no more than `n` bytes, and where there is room for these they pack all. -/
def Fit (lib : Marshalling F) (env : Env) (n : Nat) (m : Message F) (mics : List Mic) : Prop :=
  ∀ s (resp : Resp), resp.size + n ≤ kSizeofMavlinkMessage →
    ∃ resp', packAll lib s env m resp mics = some resp' ∧ resp'.size ≤ resp.size + n

variable {lib : Marshalling F} {env : Env} {m : Message F} {n : Nat} {mic : Mic} {mics : List Mic}

theorem fit_nil : Fit lib env n m [] := fun _ resp _ => ⟨resp, rfl, Nat.le_add_right _ _⟩

/-- A microservice packs a part of the bytes, and what is left of them is enough for the others. -/
theorem fit_cons (hshort : ∀ s r, mic.process s env m = some r → packedLen r.2.1.responses ≤ n)
    (hothers : ∀ s r, mic.process s env m = some r → r.2.2 = .ignored →
      Fit lib env (n - packedLen r.2.1.responses) r.2.1.message mics) : Fit lib env n m (mic :: mics) := by
  intro s resp hroom
  cases hmic : mic.process s env m with
  | none => exact ⟨resp, by rw [packAll, hmic], Nat.le_add_right _ _⟩
  | some r =>
    obtain ⟨s', t, ret⟩ := r
    have hlen : packedLen t.responses ≤ n := hshort s _ hmic
    obtain ⟨resp₁, hresp₁, hsize₁⟩ := @onResponses_isSome _ lib resp t.responses (by omega)
    by_cases hret : ret = .ignored
    · obtain ⟨resp', hresp', hsize'⟩ := hothers s _ hmic hret s' resp₁ (by dsimp only; omega)
      refine ⟨resp', ?_, ?_⟩
      · rw [packAll, hmic]
        simp only [hresp₁, Option.bind_some, hret, ne_eq, not_true_eq_false, if_false]
        exact hresp'
      · dsimp only at hsize'
        omega
    · refine ⟨resp₁, ?_, by omega⟩
      rw [packAll, hmic]
      simp only [hresp₁, Option.bind_some, ne_eq, hret, not_false_eq_true, if_true]

/-- A microservice that packs a pair of messages at most and leaves alone what is not its own. -/
theorem fit_lawful (hshort : ∀ s r, mic.process s env m = some r → r.2.1.Short)
    (hignored : ∀ s r, mic.process s env m = some r → r.2.2 = .ignored → r.2.1.message = m ∧ r.2.1.responses = [])
    (hothers : Fit lib env kPairLen m mics) : Fit lib env kPairLen m (mic :: mics) := by
  apply fit_cons hshort
  intro s r hmic hret
  obtain ⟨hmessage, hresponses⟩ := hignored s r hmic hret
  rw [hmessage, hresponses]
  exact hothers

/-- An acknowledgement in the buffer is none of the services' behind the tracker's. -/
theorem after_the_tracker (n : Nat) {m : Message F} {a : CommandAck} (hm : m.body = .commandAck a) :
    Fit lib env n m [.bftFtpClient, .bufferedFileTransfer] := by
  have hclient : ∀ c : BftFtpClient, c.turn m = (c, { message := m }, .ignored) := by
    intro c
    simp [BftFtpClient.turn, Message.toMavlink, hm, BftFtpClient.process]
  have htransfer : ∀ s, BufferedFileTransfer.turn s env.bufferedFileTransfer m = some (s, { message := m }, .ignored) := by
    intro s
    simp [BufferedFileTransfer.turn, BufferedFileTransfer.process, hm]
  apply fit_cons
  · intro s r hmic
    rw [process, hclient] at hmic
    obtain rfl := Option.some_inj.mp hmic
    exact Nat.zero_le _
  · intro s r hmic _
    rw [process, hclient] at hmic
    obtain rfl := Option.some_inj.mp hmic
    apply fit_cons
    · intro s r hmic
      rw [process, htransfer] at hmic
      obtain rfl := Option.some_inj.mp hmic
      exact Nat.zero_le _
    · exact fun _ _ _ _ => fit_nil

/-- What the tracker leaves alone, the two services behind it pack a pair of messages for at most. -/
theorem file_services_fit (lib : Marshalling F) (env : Env) (m : Message F) :
    Fit lib env kPairLen m [.bftFtpClient, .bufferedFileTransfer] := by
  apply fit_lawful
  · intro s r hmic
    obtain rfl := Option.some_inj.mp hmic
    exact BftFtpClient.turn_short s.bftFtpClient m
  · intro s r hmic hret
    obtain rfl := Option.some_inj.mp hmic
    obtain ⟨hmessage, hresponses, -⟩ := (BftFtpClient.turn_lawful s.bftFtpClient m).ignored hret
    exact ⟨hmessage, hresponses⟩
  · apply fit_cons
    · intro s r hmic
      obtain ⟨⟨s', t, ret⟩, hturn, rfl⟩ := Option.map_eq_some_iff.mp hmic
      exact BufferedFileTransfer.turn_short hturn
    · exact fun _ _ _ _ => fit_nil

theorem tracking_acknowledges {s : State} {r : State × Turn F × Microservice.Ret}
    (h : process s env m .tracking = some r) : (r.2.1.message = m ∧ r.2.1.responses = []) ∨
      ∃ a, r.2.1.message.body = .commandAck a ∧ r.2.1.responses = [r.2.1.message] := by
  obtain ⟨⟨s', t, ret⟩, hprocess, rfl⟩ := Option.map_eq_some_iff.mp h
  exact Tracking.process_acknowledges hprocess

theorem microservices_fit (lib : Marshalling F) (env : Env) (m : Message F) : Fit lib env kPairLen m microservices := by
  refine fit_lawful ?_ ?_ (fit_lawful ?_ ?_ (fit_lawful ?_ ?_ (fit_lawful ?_ ?_ (fit_cons ?_ ?_))))
  all_goals intro s r hmic
  -- the Wi-Fi interfaces
  · obtain rfl := Option.some_inj.mp hmic
    exact Wifi.process_short env.wifi env.uninitialized m
  · obtain rfl := Option.some_inj.mp hmic
    exact Wifi.process_ignored
  -- the sockets
  · obtain ⟨⟨s', t, ret⟩, hturn, rfl⟩ := Option.map_eq_some_iff.mp hmic
    exact GsNetwork.turn_short hturn
  · obtain ⟨⟨s', t, ret⟩, hturn, rfl⟩ := Option.map_eq_some_iff.mp hmic
    intro hret
    obtain ⟨hmessage, hresponses, -⟩ := (GsNetwork.turn_lawful hturn).ignored hret
    exact ⟨hmessage, hresponses⟩
  -- the camera
  · obtain rfl := Option.some_inj.mp hmic
    exact Camera.process_short s.camera env.camera env.uninitialized m
  · obtain rfl := Option.some_inj.mp hmic
    intro hret
    obtain ⟨hmessage, hresponses, -⟩ := (Camera.process_lawful s.camera env.camera env.uninitialized m).ignored hret
    exact ⟨hmessage, hresponses⟩
  -- the autopilot's version
  · obtain rfl := Option.some_inj.mp hmic
    exact ApVer.process_short s.apVer m
  · obtain rfl := Option.some_inj.mp hmic
    intro hret
    obtain ⟨hmessage, hresponses, -⟩ := (ApVer.process_lawful s.apVer m).ignored hret
    exact ⟨hmessage, hresponses⟩
  -- the tracker
  · rcases tracking_acknowledges hmic with ⟨-, hnothing⟩ | ⟨a, hack, hone⟩
    · exact short_of_nothing hnothing
    · rw [hone, packedLen_singleton, hack, maxPayloadLen_commandAck, kPairLen]
      omega
  · intro _
    rcases tracking_acknowledges hmic with ⟨hm, hnothing⟩ | ⟨a, hack, -⟩
    · rw [hm, hnothing]
      exact file_services_fit lib env m
    · exact after_the_tracker _ hack

/-- What is packed are the messages the callback is called with. -/
theorem packAll_eq {s : State} {t : Turn F} {r : State × Turn F × Microservice.Ret} (h : processAll s env t mics = some r) :
    ∃ ms, r.2.1.responses = t.responses ++ ms ∧
      ∀ resp : Resp, packAll lib s env t.message resp mics = resp.onResponses lib ms := by
  induction mics generalizing s t with
  | nil =>
    obtain rfl := Option.some_inj.mp h
    exact ⟨[], (List.append_nil _).symm, fun _ => rfl⟩
  | cons mic mics ih =>
    obtain ⟨⟨s', t', ret⟩, hmic, hrest⟩ := Option.bind_eq_some_iff.mp h
    dsimp only at hrest
    by_cases hret : ret = .ignored
    · rw [if_neg (fun hne => hne hret)] at hrest
      obtain ⟨ms, hms, hpack⟩ := ih hrest
      refine ⟨t'.responses ++ ms, by rw [hms]; exact List.append_assoc _ _ _, fun resp => ?_⟩
      rw [packAll, hmic, Resp.onResponses, List.foldlM_append]
      simp only [hret, ne_eq, not_true_eq_false, if_false]
      exact congrArg _ (funext hpack)
    · rw [if_pos hret] at hrest
      obtain rfl := Option.some_inj.mp hrest
      refine ⟨t'.responses, rfl, fun resp => ?_⟩
      rw [packAll, hmic]
      simp only [hret, ne_eq, not_false_eq_true, if_true]
      exact Option.bind_fun_some _

end Mic

/-! ## The dispatcher -/

/-- `Dispatcher::process`, behind the parser: the buffer is empty, and the microservices are asked. -/
def Resp.process [SinglePrecision F] (lib : Marshalling F) (s : Mic.State) (env : Mic.Env) (m : Message F) (resp : Resp) :
    Option Resp :=
  Mic.packAll lib s env m { resp with size := 0 } Mic.microservices

/-- Whatever the message, the states of the microservices and what they find around them,
    no write goes past the buffer and no slice begins behind it: all that has been packed is in it.
    A message that is packed outside of the turn of a message fits as well. -/
theorem response_buffer_never_overflows [SinglePrecision F] (lib : Marshalling F) (s : Mic.State) (env : Mic.Env)
    (m : Message F) (resp : Resp) :
    (∃ resp', resp.process lib s env m = some resp' ∧ resp'.size ≤ kSizeofMavlinkMessage ∧
      ∀ r, Mic.processAll s env { message := m } Mic.microservices = some r →
        resp'.size = (r.2.1.responses.flatMap lib.msgToSendBuffer).length ∧
          resp'.buffer.take resp'.size = r.2.1.responses.flatMap lib.msgToSendBuffer) ∧
      ∀ delayed, (resp.onSubscription lib delayed).isSome := by
  have hroom : 0 + kPairLen ≤ kSizeofMavlinkMessage := by decide
  obtain ⟨resp', hresp', hsize⟩ := Mic.microservices_fit lib env m s { resp with size := 0 } hroom
  refine ⟨⟨resp', hresp', Nat.le_trans hsize hroom, fun r hr => ?_⟩, onSubscription_isSome lib resp⟩
  obtain ⟨ms, hms, hpack⟩ := @Mic.packAll_eq _ _ lib _ _ _ _ _ hr
  have hresponses : r.2.1.responses = ms := hms
  obtain ⟨hsize, htake⟩ := onResponses_some ((hpack _).symm.trans hresp')
  rw [hresponses]
  exact ⟨hsize.trans (Nat.zero_add _), htake⟩

/-! ## A marshalling -/

namespace Marshalling

/-- The bytes of a number, the lowest first. -/
def littleEndian (size n : Nat) : List UInt8 := (List.range size).map fun i => UInt8.ofNat (n / 256 ^ i)

def kFileUrlLen : Nat := 205

/-- The fields of the message, the widest first; those the code leaves at zero are zeros.
    Of the other messages nothing is written out here. -/
def payload : Body Int → List UInt8
  | .commandAck a =>
    littleEndian 2 a.command.toNat ++ [UInt8.ofNat a.result.code, 0] ++ littleEndian 4 0 ++
      [a.targetSystem, a.targetComponent]
  | .cameraImageCaptured i =>
    littleEndian 8 0 ++ littleEndian 4 i.timeBootMs.toNat ++ List.replicate 32 0 ++ littleEndian 4 i.imageIndex ++
      [0, UInt8.ofNat i.captureResult.code] ++ i.fileUrl.take kFileUrlLen ++ List.replicate (kFileUrlLen - i.fileUrl.length) 0
  | _ => []

def msgid : Body Int → Nat
  | .commandAck _ => 77
  | .cameraImageCaptured _ => MsgId.cameraImageCaptured
  | _ => 0

/-- What the checksum of a message takes in besides its bytes. -/
def crcExtra : Body Int → UInt8
  | .commandAck _ => 143
  | .cameraImageCaptured _ => 133
  | _ => 0

/-- `_mav_trim_payload`: the zeros at the end are cut off, the first byte is kept. -/
def trimPayload (bytes : List UInt8) : List UInt8 := bytes.take 1 ++ (bytes.drop 1).rdropWhile (· == 0)

def crcAccumulate (crc : UInt16) (byte : UInt8) : UInt16 :=
  let tmp := byte ^^^ crc.toUInt8
  let tmp := tmp ^^^ (tmp <<< 4)
  (crc >>> 8) ^^^ (tmp.toUInt16 <<< 8) ^^^ (tmp.toUInt16 <<< 3) ^^^ (tmp.toUInt16 >>> 4)

def checksum (bytes : List UInt8) (extra : UInt8) : List UInt8 :=
  littleEndian 2 (crcAccumulate (bytes.foldl crcAccumulate 0xFFFF) extra).toNat

/-- The header behind the magic byte: not signed, the first of its channel. -/
def header (m : Message Int) (len : Nat) : List UInt8 :=
  [UInt8.ofNat len, 0, 0, 0, m.sysid, m.compid] ++ littleEndian 3 (msgid m.body)

theorem trimPayload_length_le (bytes : List UInt8) : (trimPayload bytes).length ≤ bytes.length := by
  have htail : ((bytes.drop 1).rdropWhile (· == 0)).length ≤ (bytes.drop 1).length :=
    (List.rdropWhile_prefix _ _).length_le
  have htake := congrArg List.length (List.take_append_drop 1 bytes)
  simp only [trimPayload, List.length_append] at htail htake ⊢
  omega

theorem payload_length_le (body : Body Int) : (payload body).length ≤ body.maxPayloadLen := by
  cases body with
  | commandAck a => simp [payload, littleEndian]
  | cameraImageCaptured i =>
    simp only [payload, littleEndian, Body.maxPayloadLen, kFileUrlLen, List.length_append, List.length_map, List.length_range,
      List.length_replicate, List.length_take, List.length_cons, List.length_nil]
    omega
  | _ => exact Nat.zero_le _

def mavlink2 : Marshalling Int where
  msgToSendBuffer m :=
    let bytes := trimPayload (payload m.body)
    0xFD :: (header m bytes.length ++ bytes) ++ checksum (header m bytes.length ++ bytes) (crcExtra m.body)
  length_le m := by
    have htrim := trimPayload_length_le (payload m.body)
    have hpayload := payload_length_le m.body
    simp only [header, checksum, littleEndian, kNumNonPayloadBytes, List.length_append, List.length_cons, List.length_map,
      List.length_range, List.length_nil]
    omega

end Marshalling

/-- A capture with a name that fills its field. -/
def photographed : Mic.State :=
  { Mic.started with camera := { imageCaptureSequence := [⟨7, 1, .accepted, List.replicate 205 0x61⟩] } }

def requestImageCaptured : Message Int :=
  ⟨255, 190, .commandLong
    { targetSystem := 1, targetComponent := 100, command := MavCmd.requestMessage, confirmation := 0,
      param1 := MsgId.cameraImageCaptured, param2 := 0, param3 := 0, param4 := 7, param5 := 0, param6 := 0, param7 := 0 }⟩

/-- The acknowledgement and the longest of the messages leave two bytes. -/
theorem the_longest_answer_fits :
    ∃ resp', Resp.process Marshalling.mavlink2 photographed Mic.alone requestImageCaptured
        ⟨List.replicate 291 0, 0, List.length_replicate⟩ = some resp' ∧
      resp'.size = 289 ∧ resp'.size ≤ kSizeofMavlinkMessage := by
  obtain ⟨⟨resp', hresp', hle, hpacked⟩, -⟩ := response_buffer_never_overflows Marshalling.mavlink2 photographed Mic.alone
    requestImageCaptured ⟨List.replicate 291 0, 0, List.length_replicate⟩
  have hlength : (Mic.processAll photographed Mic.alone { message := requestImageCaptured } Mic.microservices).map
      (fun r => (r.2.1.responses.flatMap Marshalling.mavlink2.msgToSendBuffer).length) = some 289 := by decide +kernel
  obtain ⟨r, hr, hlen⟩ := Option.map_eq_some_iff.mp hlength
  exact ⟨resp', hresp', (hpacked r hr).1.trans hlen, hle⟩

end Esp32Cam.Mav
