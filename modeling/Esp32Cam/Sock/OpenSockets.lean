/-
  Esp32Cam.Sock.OpenSockets — what a failed operation leaves in the lists of sockets.

  The lists are searched by asking each socket for its local endpoint, so every socket in
  them has to be open and bound (`AllBound`). Connecting, accepting and the errors of
  receiving keep it so; opening a port and sending over UDP leave the socket they have
  not been able to create behind.

  `open_and_clean_iff`: every socket is open and bound, and every failed operation leaves the
  lists as they were, exactly in the runs where opening never fails, and a UDP send whose
  socket is not created all the way goes through on it all the same.
  `a_failed_open_leaves_a_closed_socket` is the shortest run where it does not; the next
  call of the kind throws.
-/

import Esp32Cam.Lib.PartialRun
import Esp32Cam.Sock.Calls

namespace Esp32Cam.Sock

open Esp32Cam.Lib
open Esp32Cam.Asio (Endpoint)

namespace Socket

def Bound (s : Socket) : Prop := s.isOpen = true ∧ s.localPort ≠ 0

instance (s : Socket) : Decidable s.Bound := inferInstanceAs (Decidable (_ ∧ _))

end Socket

namespace Api

abbrev AllBound : Api → Prop := All Socket.Bound Socket.Bound

def container (a : Api) : List Socket × List Socket × List Socket := (a.tcpConnected, a.tcpListening, a.udp)

/-- The error creating a socket comes to, where the call comes to create one. -/
def creationError (a : Api) : Call → Option SysError
  | .connect os remote port => if a.findConnected remote port = some none then connectError os port else none
  | .openTcp os port => if findPort port a.tcpListening = some none then openTcpError os else none
  | .openUdp os port => if findPort port a.udp = some none then openUdpError os else none
  | .sendToUdp os port => if a.findSender port = some none then createError os else none
  | _ => none

/-- A call that reports an error from creating a socket leaves the lists as they were. -/
def Clean (cfg : Bool) (a : Api) (c : Call) (a' : Api) : Prop :=
  (a.creationError c).isSome = true → (∃ e, a.call cfg c = some (a', some e)) → a'.container = a.container

/-- Opening a port does not fail, and a send goes through where its socket is not created all the way. -/
def Creates (a : Api) : Call → Prop
  | .openTcp os port => findPort port a.tcpListening = some none → openTcpError os = none
  | .openUdp os port => findPort port a.udp = some none → openUdpError os = none
  | .sendToUdp os port => a.findSender port = some none →
    createError os = none ∨ (os.open_ = none ∧ os.send = none)
  | _ => True

instance (a : Api) (c : Call) : Decidable (a.Creates c) := by
  cases c <;> unfold Creates <;> infer_instance

/-! ## What keeps a list open and bound -/

theorem bound_lasting : Lasting Socket.Bound := ⟨fun _ h => h, fun _ h => h⟩

theorem accepted_bound (acceptor : Socket) (peer : Option Endpoint) (h : acceptor.Bound) (_ : acceptor.pending = true) :
    (accepted acceptor peer).Bound := ⟨rfl, h.2⟩

theorem connected_bound (os : Os) (remote : Endpoint) (port : UInt16) : (connected os remote port).Bound :=
  ⟨rfl, os.bound_ne_zero port⟩

theorem opened_bound (os : Os) (aLocalPort : UInt16) (aErr : Option SysError) :
    (opened os aLocalPort aErr).Bound ↔ aErr = none := by
  cases aErr with
  | none => exact iff_of_true ⟨rfl, os.bound_ne_zero aLocalPort⟩ rfl
  | some e => exact iff_of_false (fun h => nomatch h.1) nofun

/-- The socket a send has created is open and bound where it has been bound, or has been sent from. -/
theorem sendFrom_bound (os : Os) (aLocalPort : UInt16) : (sendFrom (created os aLocalPort) os).Bound ↔
    bindError os = none ∨ (os.open_ = none ∧ (os.send = none ∨ os.autoBinds = true)) := by
  have hne := os.bound_ne_zero aLocalPort
  have heph := os.ephemeral.property
  unfold sendFrom created bindError Socket.Bound
  cases hopen : os.open_ with
  | some e => simp
  | none =>
    cases hbind : os.bind with
    | none => simp [hne]
    | some e => cases hsend : os.send <;> cases hauto : os.autoBinds <;> simp [heph]

/-! ## One call -/

section
variable {a a' : Api} {cfg : Bool} {c : Call}

theorem step_call (h : a.step cfg c = some a') : ∃ aErr, a.call cfg c = some (a', aErr) := by
  obtain ⟨⟨a₁, aErr⟩, hcall, rfl⟩ := Option.map_eq_some_iff.mp h
  exact ⟨aErr, hcall⟩

/-- A call that leaves the lists as they were keeps both. -/
theorem bound_and_clean_of_same (hb : a.AllBound) (hsame : a' = a) : a'.AllBound ∧ Clean cfg a c a' := by
  subst hsame
  exact ⟨hb, fun _ _ => rfl⟩

/-- A call that creates no socket only has to keep the sockets open. -/
theorem clean_of_creationError (h : a.creationError c = none) : Clean cfg a c a' :=
  fun hsome _ => by rw [h] at hsome; cases hsome

/-- The calls whose socket is bound to a port here. -/
def bindsPort : Call → Bool
  | .openTcp _ _ | .openUdp _ _ | .sendToUdp _ _ => true
  | _ => false

theorem call_bound {aErr : Option Error} (hb : a.AllBound) (h : a.call cfg c = some (a', aErr))
    (hc : bindsPort c = false) : a'.AllBound := by
  refine call_all bound_lasting bound_lasting accepted_bound connected_bound ?_ ?_ ?_ hb h
  · intro os port heq
    rw [heq] at hc
    cases hc
  · intro os port heq
    rw [heq] at hc
    cases hc
  · intro os port heq
    rw [heq] at hc
    cases hc

/-- A call that binds no port and creates no socket. -/
theorem call_other {aErr : Option Error} (hb : a.AllBound) (h : a.call cfg c = some (a', aErr))
    (hc : bindsPort c = false) (hnone : a.creationError c = none) : a'.AllBound ∧ Clean cfg a c a' :=
  ⟨call_bound hb h hc, clean_of_creationError hnone⟩

theorem call_connect {os : Os} {remote : Endpoint} {port : UInt16} {aErr : Option Error} (hb : a.AllBound)
    (h : a.call cfg (.connect os remote port) = some (a', aErr)) :
    a'.AllBound ∧ Clean cfg a (.connect os remote port) a' := by
  refine ⟨call_bound hb h rfl, ?_⟩
  obtain ⟨⟨a₁, port', aErr'⟩, hcall, heq⟩ := Option.map_eq_some_iff.mp h
  obtain ⟨rfl, rfl⟩ := Prod.mk.inj heq
  rcases connect_cases hcall with ⟨it, -, rfl, -⟩ | ⟨e, -, -, rfl, -⟩ | ⟨-, herr, -, -⟩
  · exact fun _ _ => rfl
  · exact fun _ _ => rfl
  · refine clean_of_creationError ?_
    rw [creationError, herr, ite_self]

theorem call_openTcp {os : Os} {port : UInt16} {aErr : Option Error} (hb : a.AllBound)
    (h : a.call cfg (.openTcp os port) = some (a', aErr)) :
    (a'.AllBound ∧ Clean cfg a (.openTcp os port) a') ↔ a.Creates (.openTcp os port) := by
  rcases openTcp_cases h with ⟨it, hfind, hsame, -⟩ | ⟨hfind, haErr, hadds⟩
  · refine iff_of_true (bound_and_clean_of_same hb hsame) fun hnone => ?_
    rw [hfind] at hnone
    cases hnone
  · have hkeeps : a'.AllBound ↔ openTcpError os = none := by
      rw [← opened_bound os port, ← forall_append hb.tcpListening, hadds]
      exact ⟨All.tcpListening, fun h => ⟨hb.tcpConnected, h, hb.udp⟩⟩
    constructor
    · exact fun h _ => hkeeps.mp h.1
    · intro hcreates
      refine ⟨hkeeps.mpr (hcreates hfind), clean_of_creationError ?_⟩
      rw [creationError, hcreates hfind, ite_self]

theorem call_openUdp {os : Os} {port : UInt16} {aErr : Option Error} (hb : a.AllBound)
    (h : a.call cfg (.openUdp os port) = some (a', aErr)) :
    (a'.AllBound ∧ Clean cfg a (.openUdp os port) a') ↔ a.Creates (.openUdp os port) := by
  rcases openUdp_cases h with ⟨it, hfind, hsame, -⟩ | ⟨hfind, haErr, hadds⟩
  · refine iff_of_true (bound_and_clean_of_same hb hsame) fun hnone => ?_
    rw [hfind] at hnone
    cases hnone
  · have hkeeps : a'.AllBound ↔ openUdpError os = none := by
      rw [← opened_bound os port, ← forall_append hb.udp, hadds]
      exact ⟨All.udp, fun h => ⟨hb.tcpConnected, hb.tcpListening, h⟩⟩
    constructor
    · exact fun h _ => hkeeps.mp h.1
    · intro hcreates
      refine ⟨hkeeps.mpr (hcreates hfind), clean_of_creationError ?_⟩
      rw [creationError, hcreates hfind, ite_self]

theorem call_sendToUdp {os : Os} {port : UInt16} {aErr : Option Error} (hb : a.AllBound)
    (h : a.call cfg (.sendToUdp os port) = some (a', aErr)) :
    (a'.AllBound ∧ Clean cfg a (.sendToUdp os port) a') ↔ a.Creates (.sendToUdp os port) := by
  obtain ⟨⟨a₁, sent⟩, hcall, heq⟩ := Option.map_eq_some_iff.mp h
  obtain ⟨rfl, rfl⟩ := Prod.mk.inj heq
  rcases sendToUdp_cases hcall with ⟨it, hfind, hsame, -⟩ | ⟨hfind, hadds, hsent⟩
  · refine iff_of_true (bound_and_clean_of_same hb hsame) fun hnone => ?_
    rw [hfind] at hnone
    cases hnone
  · have hkeeps : a₁.AllBound ↔ bindError os = none ∨ (os.open_ = none ∧ (os.send = none ∨ os.autoBinds = true)) := by
      rw [← sendFrom_bound os port, ← forall_append hb.udp, hadds]
      exact ⟨All.udp, fun h => ⟨hb.tcpConnected, hb.tcpListening, h⟩⟩
    have hgrown : a₁.container ≠ a.container := by
      rw [hadds]
      intro hsame
      have := congrArg (fun c => c.2.2.length) hsame
      simp [container] at this
    have hclean : Clean cfg a (.sendToUdp os port) a₁ ↔ createError os = none ∨ sendError (created os port) os = none := by
      have herr : a.creationError (.sendToUdp os port) = createError os := if_pos hfind
      unfold Clean
      rw [herr, h, hsent]
      cases hcreate : createError os <;> cases hsend : sendError (created os port) os <;> simp [hgrown]
    have hcreates : a.Creates (.sendToUdp os port) ↔ createError os = none ∨ (os.open_ = none ∧ os.send = none) :=
      imp_iff_right hfind
    rw [hkeeps, hclean, hcreates]
    unfold sendError created createError bindError
    cases hopen : os.open_ <;> cases hbind : os.bind <;> cases hep : os.localEndpoint <;> cases hsend : os.send <;> simp

/-- A call keeps every socket open and bound, and cleans up behind itself, exactly where it creates the socket
    it has to. -/
theorem step_bound_and_clean (h : a.step cfg c = some a') (hb : a.AllBound) :
    (a'.AllBound ∧ Clean cfg a c a') ↔ a.Creates c := by
  obtain ⟨aErr, hcall⟩ := step_call h
  cases c with
  | connect os remote port => exact iff_of_true (call_connect hb hcall) trivial
  | openTcp os port => exact call_openTcp hb hcall
  | openUdp os port => exact call_openUdp hb hcall
  | sendToUdp os port => exact call_sendToUdp hb hcall
  | disconnect os remote port => exact iff_of_true (call_other hb hcall rfl rfl) trivial
  | closeTcp os port => exact iff_of_true (call_other hb hcall rfl rfl) trivial
  | closeUdp os port => exact iff_of_true (call_other hb hcall rfl rfl) trivial
  | sendToTcp os remote port => exact iff_of_true (call_other hb hcall rfl rfl) trivial
  | handler handler => exact iff_of_true (call_other hb hcall rfl rfl) trivial

end

/-! ## Every run -/

/-- **Failed operations.** In a run of the calls and the handlers from empty lists, every
    socket is open and bound, and every call that reports an error from creating a socket
    leaves the lists as they were, exactly when opening a port never fails and a UDP send
    whose socket is not created all the way opens and sends. -/
theorem open_and_clean_iff (closeCliDisconnect : Bool) (cs : List Call) :
    PartialRun.Always (step closeCliDisconnect) AllBound {} cs ∧
      PartialRun.Along (step closeCliDisconnect) (Clean closeCliDisconnect) {} cs ↔
    PartialRun.Along (step closeCliDisconnect) (fun a c _ => a.Creates c) {} cs :=
  PartialRun.always_and_along_iff (I := fun _ => True) (fun _ _ _ _ _ _ _ => trivial)
    (fun _ _ _ h _ hb => step_bound_and_clean h hb) trivial ⟨nofun, nofun, nofun⟩

/-- The port is in use, say: the socket stays in its list, not open. The next call that
    searches the list comes to it and throws. -/
theorem a_failed_open_leaves_a_closed_socket :
    let os : Os := { bind := some (.other 112) }
    let cs := [Call.openTcp os 5000, Call.openTcp {} 5000]
    ¬ (PartialRun.Always (step true) AllBound {} cs ∧ PartialRun.Along (step true) (Clean true) {} cs) ∧
      ∃ a, step true {} (.openTcp os 5000) = some a ∧ Socket.closed ∈ a.tcpListening ∧
        step true a (.openTcp {} 5000) = none := by
  refine ⟨fun h => ?_, ⟨[], [.closed], [], false⟩, rfl, by decide, rfl⟩
  have hb := (h.1.2 ⟨[], [.closed], [], false⟩ rfl).head
  exact absurd (hb.tcpListening .closed List.mem_cons_self).1 nofun

end Api

end Esp32Cam.Sock
