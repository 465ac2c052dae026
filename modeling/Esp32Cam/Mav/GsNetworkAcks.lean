/-
  Esp32Cam.Mav.GsNetworkAcks — what an acknowledgement of the network service is worth.

  An answer says SUCCESS or FAIL. `Effect` is what each command has been asked for, in the
  state the answer is formed in; `Truthful` asks for it behind every SUCCESS, and for FAIL
  where the transport is not the command's or the socket it is about does not exist.

  `truthful_iff`: which requests are answered truthfully, in every state of the sockets and
  for every answer of the system. With nothing to close or to disconnect from (`NothingThere`)
  the answer is SUCCESS, on purpose. `a_send_without_a_connection_is_acknowledged` is a
  request that is answered so by mistake: the error is returned in place of the count of
  bytes, and nobody reads it.
-/

import Esp32Cam.Sock.OpenSockets
import Esp32Cam.Mav.GsNetwork

namespace Esp32Cam.Mav.GsNetwork

open Esp32Cam.Sock
open Esp32Cam.Sock.Api

/-! ## What is asked for -/

def payloadSize (m : Message) : Nat :=
  match m.transport with
  | .tcp4 | .udp4 => m.payloadLen.toNat - 4
  | .tcp6 | .udp6 => m.payloadLen.toNat - 16
  | .other _ => m.payloadLen.toNat

def portSockets (a : Api) (m : Message) : List Socket := if m.transport.isTcp then a.tcpListening else a.udp

/-- The sockets a payload is sent over, and which of them the request names. -/
def senders (a : Api) (m : Message) : List Socket := if m.transport.isTcp then a.tcpConnected else a.udp

def IsSender (m : Message) (x : Socket) : Prop :=
  if m.transport.isTcp then IsConnection m.remote m.hostPort x
  else m.hostPort = 0 ∨ x.localEndpoint = some m.hostPort

def Effect (m : Message) (d : Done) : Prop :=
  match m.command with
  | .connect => ∃ x ∈ d.state.api.tcpConnected, x.remoteEndpoint = some m.remote
  | .disconnect => ∀ x ∈ d.state.api.tcpConnected, ¬ IsConnection m.remote m.hostPort x
  | .open_ => ∃ x ∈ portSockets d.state.api m, x.localEndpoint = some m.hostPort
  | .close => ∀ x ∈ portSockets d.state.api m, x.localEndpoint ≠ some m.hostPort
  | .send => ∃ it x, d.taken = some (it, payloadSize m) ∧ (senders d.state.api m)[it]? = some x ∧ IsSender m x
  | _ => True

def Supported (m : Message) : Prop :=
  match m.command with
  | .connect | .disconnect => m.transport.isTcp = true
  | .open_ | .close | .send => m.transport.isTcp = true ∨ m.transport.isUdp = true
  | _ => True

def NothingThere (s : State) (m : Message) : Prop :=
  match m.command with
  | .disconnect => ∀ x ∈ s.api.tcpConnected, ¬ IsConnection m.remote m.hostPort x
  | .close => ∀ x ∈ portSockets s.api m, x.localEndpoint ≠ some m.hostPort
  | _ => False

/-- The socket the request is about does not exist. CONNECT, OPEN and a send over UDP make theirs. -/
def NoSocket (s : State) (m : Message) : Prop :=
  NothingThere s m ∨
  (m.command = .send ∧ m.transport.isTcp = true ∧ ∀ x ∈ s.api.tcpConnected, ¬ IsConnection m.remote m.hostPort x)

structure Truthful (s : State) (m : Message) (d : Done) : Prop where
  success : d.message.ack = .success → Effect m d
  fail : ¬ Supported m ∨ NoSocket s m → d.message.ack = .fail

/-! ## Which requests are answered so -/

/-- The condition for a request that has its socket, command by command. -/
def Honest (s : State) (os : Os) (m : Message) : Prop :=
  match m.command with
  | .connect => m.transport.isTcp = true ∧
    (s.api.findConnected m.remote m.hostPort = some none → connectError os m.hostPort = some .alreadyConnected →
      ∃ x ∈ s.api.tcpConnected, x.remoteEndpoint = some m.remote)
  | .disconnect =>
    if m.transport.isTcp then
      (findRemotePort m.remote m.hostPort s.api.tcpConnected = some none → m.hostPort = 0 →
        ∀ x ∈ s.api.tcpConnected, x.remoteEndpoint ≠ some m.remote) ∧
      ∀ it, findRemotePort m.remote m.hostPort s.api.tcpConnected = some (some it) →
        os.close = none ∨ os.close = some .notConnected →
        ∀ x ∈ s.api.tcpConnected.eraseIdx it, ¬ IsConnection m.remote m.hostPort x
    else findRemotePort m.remote m.hostPort s.api.tcpConnected ≠ some none ∧
      ∃ e, os.close = some e ∧ e ≠ .notConnected
  | .open_ =>
    if m.transport.isTcp then
      findPort m.hostPort s.api.tcpListening = some none → openTcpError os = none → m.hostPort ≠ 0
    else m.transport.isUdp = true ∧
      (findPort m.hostPort s.api.udp = some none → openUdpError os = none → m.hostPort ≠ 0)
  | .close => (m.transport.isTcp = true ∨ m.transport.isUdp = true) ∧
    ∀ it, findPort m.hostPort (portSockets s.api m) = some (some it) → os.close = none →
      ∀ x ∈ (portSockets s.api m).eraseIdx it, x.localEndpoint ≠ some m.hostPort
  | .send =>
    if m.transport.isTcp then
      s.api.findConnected m.remote m.hostPort ≠ some none ∧ (os.send = none → os.nSent = payloadSize m)
    else m.transport.isUdp = true ∧
      ((s.api.findSender m.hostPort = some none → os.open_ = none) → os.send = none → os.nSent = payloadSize m) ∧
      (s.api.findSender m.hostPort = some none → os.open_ = none → os.send = none →
        m.hostPort = 0 ∨ (os.bind.isSome = true → os.ephemeral = m.hostPort))
  | _ => True

section
variable {cfg : Bool} {s : State} {os : Os} {m : Message} {d : Done}

theorem isTcp_of_not {t : Transport} (h : t.isUdp = true) : t.isTcp = false := by
  cases t <;> first | rfl | cases h

theorem connectAck_success {err : Option Error} :
    connectAck err = .success ↔ err = some .alreadyConnected ∨ err = none := by
  unfold connectAck
  split
  · exact iff_of_true rfl ‹_›
  · exact iff_of_false nofun ‹_›

theorem disconnectAck_success : disconnectAck (os.close.map .system) = .success ↔
    os.close = none ∨ os.close = some .notConnected := by
  unfold disconnectAck ackOf
  cases hclose : os.close with
  | none => simp
  | some e => cases e <;> simp [Error.notConnected]

theorem disconnectAck_fail : disconnectAck (os.close.map .system) = .fail ↔
    ∃ e, os.close = some e ∧ e ≠ .notConnected := by
  unfold disconnectAck ackOf
  cases hclose : os.close with
  | none => simp
  | some e => cases e <;> simp [Error.notConnected]

/-- A request of a kind the service supports is answered truthfully where SUCCESS means its effect. -/
theorem truthful_of_supported (hs : Supported m) (hn : ¬ NoSocket s m) :
    Truthful s m d ↔ (d.message.ack = .success → Effect m d) := by
  constructor
  · exact Truthful.success
  · intro h
    refine ⟨h, ?_⟩
    intro h
    rcases h with hnot | hnot
    · exact absurd hs hnot
    · exact absurd hnot hn

/-- Another one has to be answered FAIL. -/
theorem truthful_of_unsupported (h : ¬ Supported m ∨ NoSocket s m) : Truthful s m d ↔ d.message.ack = .fail := by
  constructor
  · intro ht
    exact ht.fail h
  · intro hfail
    refine ⟨?_, fun _ => hfail⟩
    intro hsuccess
    rw [hfail] at hsuccess
    cases hsuccess

theorem noSocket_iff (h : m.command ≠ .send) : NoSocket s m ↔ NothingThere s m := by
  rw [NoSocket, or_iff_left]
  intro hsend
  exact h hsend.1

/-- There is something to every command but the two. -/
theorem not_nothingThere (hd : m.command ≠ .disconnect) (hc : m.command ≠ .close) : ¬ NothingThere s m := by
  unfold NothingThere
  split
  · exact absurd ‹_› hd
  · exact absurd ‹_› hc
  · exact not_false

theorem not_noSocket (hd : m.command ≠ .disconnect) (hc : m.command ≠ .close) (hs : m.command ≠ .send) :
    ¬ NoSocket s m := (noSocket_iff hs).not.mpr (not_nothingThere hd hc)

/-- A request with nothing there has to be answered FAIL. -/
theorem truthful_of_nothingThere (h : NothingThere s m) (hack : d.message.ack = .success) {P : Prop} :
    Truthful s m d ↔ P ∧ ¬ NothingThere s m := by
  refine iff_of_false (fun ht => ?_) (fun hp => hp.2 h)
  have hfail := ht.fail (Or.inr (Or.inl h))
  rw [hack] at hfail
  cases hfail

theorem connect_truthful (hm : m.command = .connect) (h : processConnect s os m = some d) :
    Truthful s m d ↔ Honest s os m := by
  have hn : ¬ NoSocket s m := not_noSocket (by rw [hm]; nofun) (by rw [hm]; nofun) (by rw [hm]; nofun)
  have hsupported : Supported m ↔ m.transport.isTcp = true := by simp only [Supported, hm]
  have heffect : ∀ d, Effect m d ↔ ∃ x ∈ d.state.api.tcpConnected, x.remoteEndpoint = some m.remote := by
    simp only [Effect, hm, implies_true]
  simp only [Honest, hm]
  rcases processConnect_cases h with ⟨htcp, api, hostPort, err, hcall, rfl⟩ | ⟨htcp, rfl⟩
  · rw [truthful_of_supported (hsupported.mpr htcp) hn, heffect, connectAck_success, htcp]
    rcases connect_cases hcall with ⟨it, hfind, rfl, rfl⟩ | ⟨e, hfind, herr, rfl, rfl⟩ | ⟨hfind, herr, rfl, rfl⟩
    · obtain ⟨x, hget, hremote, -⟩ := findConnected_some hfind
      rw [hfind]
      exact iff_of_true (fun _ => ⟨x, List.mem_of_getElem? hget, hremote⟩) ⟨rfl, nofun⟩
    · rw [hfind, herr]
      constructor
      · intro hx
        refine ⟨rfl, fun _ he => hx (Or.inl ?_)⟩
        rw [Option.some_inj.mp he]
        rfl
      · intro h h'
        rcases h with ⟨-, hx⟩
        rcases h' with he | he
        · exact hx rfl (congrArg some (Error.system.inj (Option.some_inj.mp he)))
        · cases he
    · rw [herr]
      exact iff_of_true (fun _ => ⟨_, List.mem_append_right _ List.mem_cons_self, rfl⟩) ⟨rfl, nofun⟩
  · rw [truthful_of_unsupported (Or.inl (by rw [hsupported, htcp]; exact Bool.false_ne_true)), htcp]
    exact iff_of_false nofun (fun hf => nomatch hf.1)

theorem disconnect_truthful (hm : m.command = .disconnect) (h : processDisconnect s os m = some d) :
    Truthful s m d ↔ Honest s os m ∧ ¬ NothingThere s m := by
  have hthere : NothingThere s m ↔ ∀ x ∈ s.api.tcpConnected, ¬ IsConnection m.remote m.hostPort x := by
    simp only [NothingThere, hm]
  have hn : NoSocket s m ↔ NothingThere s m := noSocket_iff (by rw [hm]; nofun)
  have hsupported : Supported m ↔ m.transport.isTcp = true := by simp only [Supported, hm]
  have heffect : ∀ d, Effect m d ↔ ∀ x ∈ d.state.api.tcpConnected, ¬ IsConnection m.remote m.hostPort x := by
    simp only [Effect, hm, implies_true]
  obtain ⟨api, err, hcall, rfl⟩ := processDisconnect_cases h
  rcases disconnect_cases hcall with ⟨hfind, rfl, rfl⟩ | ⟨it, hfind, rfl, rfl⟩
  · -- not found, and answered SUCCESS
    by_cases hnothing : NothingThere s m
    · exact truthful_of_nothingThere hnothing rfl
    · rw [and_iff_left hnothing]
      simp only [Honest, hm]
      by_cases htcp : m.transport.isTcp = true
      · rw [truthful_of_supported (hsupported.mpr htcp) (hn.not.mpr hnothing), heffect, if_pos htcp, hfind]
        constructor
        · intro hx
          exact absurd (hthere.mpr (hx rfl)) hnothing
        · intro h
          rcases h with ⟨hx, -⟩
          refine absurd (hthere.mpr fun x hmem h' => ?_) hnothing
          rcases h' with ⟨hremote, hport⟩
          rcases hport with hport | hport
          · exact hx rfl hport x hmem hremote
          · exact findRemotePort_none hfind x hmem ⟨hremote, hport⟩
      · rw [truthful_of_unsupported (Or.inl (by rw [hsupported]; exact htcp)), if_neg htcp, hfind]
        exact iff_of_false nofun (fun hf => hf.1 rfl)
  · have hnothing : ¬ NothingThere s m := by
      obtain ⟨x, hget, hremote, hport⟩ := findRemotePort_some hfind
      exact fun hall => hthere.mp hall x (List.mem_of_getElem? hget) ⟨hremote, Or.inr hport⟩
    rw [and_iff_left hnothing]
    simp only [Honest, hm]
    by_cases htcp : m.transport.isTcp = true
    · rw [truthful_of_supported (hsupported.mpr htcp) (hn.not.mpr hnothing), heffect, if_pos htcp, hfind,
        disconnectAck_success]
      constructor
      · intro hx
        refine ⟨nofun, ?_⟩
        intro it' heq hclose
        obtain rfl := Option.some_inj.mp (Option.some_inj.mp heq)
        exact hx hclose
      · intro h hclose
        rcases h with ⟨-, hx⟩
        exact hx it rfl hclose
    · rw [truthful_of_unsupported (Or.inl (by rw [hsupported]; exact htcp)), if_neg htcp, hfind]
      refine disconnectAck_fail.trans ?_
      simp

theorem openAck_success {e : Option SysError} : openAck (e.map .system) = .success ↔ e = none := by
  cases e <;> simp

theorem closeAck_success {e : Option SysError} : closeAck (e.map .system) = .success ↔ e = none := by
  cases e <;> simp

/-- A port opened: the socket found on it, or the one made. -/
theorem opened_effect {ss : List Socket} {port : UInt16} (hnone : findPort port ss = some none) (e : Option SysError) :
    (e = none → ∃ x ∈ ss ++ [opened os port e], x.localEndpoint = some port) ↔ (e = none → port ≠ 0) := by
  refine forall_congr' fun he => ?_
  subst he
  constructor
  · intro h h'
    rcases h with ⟨x, hx, hport⟩
    rcases h' with rfl
    rcases List.mem_append.mp hx with hx | hx
    · exact findPort_none hnone x hx hport
    · rw [List.mem_singleton.mp hx] at hport
      exact os.bound_ne_zero 0 (Option.some_inj.mp hport)
  · intro hport
    refine ⟨_, List.mem_append_right _ List.mem_cons_self, ?_⟩
    show some (os.bound port) = some port
    rw [Os.bound, if_neg hport]

theorem open_truthful (hm : m.command = .open_) (h : processOpen s os m = some d) :
    Truthful s m d ↔ Honest s os m := by
  have hn : ¬ NoSocket s m := not_noSocket (by rw [hm]; nofun) (by rw [hm]; nofun) (by rw [hm]; nofun)
  have hsupported : Supported m ↔ m.transport.isTcp = true ∨ m.transport.isUdp = true := by simp only [Supported, hm]
  have heffect : ∀ d, Effect m d ↔ ∃ x ∈ portSockets d.state.api m, x.localEndpoint = some m.hostPort := by
    simp only [Effect, hm, implies_true]
  simp only [Honest, hm]
  obtain ⟨api, errorCode, rfl, ⟨htcp, hcall⟩ | ⟨hudp, hcall⟩ | ⟨htcp, hudp, rfl, rfl⟩⟩ := processOpen_cases h
  · rw [truthful_of_supported (hsupported.mpr (Or.inl htcp)) hn, heffect, if_pos htcp]
    simp only [portSockets, htcp, if_true]
    rcases openTcp_cases hcall with ⟨it, hfind, rfl, rfl⟩ | ⟨hfind, rfl, rfl⟩
    · obtain ⟨x, hget, hport⟩ := findPort_some hfind
      rw [hfind]
      exact iff_of_true (fun _ => ⟨x, List.mem_of_getElem? hget, hport⟩) nofun
    · rw [hfind, openAck_success]
      simp only [forall_const]
      exact opened_effect hfind (openTcpError os)
  · have htcp := isTcp_of_not hudp
    rw [truthful_of_supported (hsupported.mpr (Or.inr hudp)) hn, heffect, htcp, if_neg Bool.false_ne_true]
    simp only [portSockets, htcp, Bool.false_eq_true, if_false]
    rcases openUdp_cases hcall with ⟨it, hfind, rfl, rfl⟩ | ⟨hfind, rfl, rfl⟩
    · obtain ⟨x, hget, hport⟩ := findPort_some hfind
      rw [hfind]
      exact iff_of_true (fun _ => ⟨x, List.mem_of_getElem? hget, hport⟩) ⟨hudp, nofun⟩
    · rw [hfind, openAck_success, and_iff_right hudp]
      simp only [forall_const]
      exact opened_effect hfind (openUdpError os)
  · rw [truthful_of_unsupported (Or.inl (by rw [hsupported, htcp, hudp]; simp)), htcp, hudp]
    exact iff_of_false nofun (by simp)

/-- A port that is asked to be closed: nothing is found on it, and the answer is SUCCESS; or the socket found on it
    has gone, and no other is on it. -/
theorem close_search_truthful {ss : List Socket} {err : Option Error} (hm : m.command = .close) (hs : Supported m)
    (hss : portSockets s.api m = ss) (hack : d.message.ack = closeAck err)
    (hcases : (findPort m.hostPort ss = some none ∧ err = some .notFound) ∨
      ∃ it, findPort m.hostPort ss = some (some it) ∧ err = os.close.map .system ∧
        portSockets d.state.api m = ss.eraseIdx it) :
    Truthful s m d ↔
      (∀ it, findPort m.hostPort ss = some (some it) → os.close = none →
        ∀ x ∈ ss.eraseIdx it, x.localEndpoint ≠ some m.hostPort) ∧ ¬ NothingThere s m := by
  have hthere : NothingThere s m ↔ ∀ x ∈ ss, x.localEndpoint ≠ some m.hostPort := by
    simp only [NothingThere, hm, hss]
  rcases hcases with ⟨hfind, rfl⟩ | ⟨it, hfind, rfl, hleft⟩
  · exact truthful_of_nothingThere (hthere.mpr (findPort_none hfind)) hack
  · have hnothing : ¬ NothingThere s m := by
      obtain ⟨x, hget, hport⟩ := findPort_some hfind
      exact fun hall => hthere.mp hall x (List.mem_of_getElem? hget) hport
    have hn : ¬ NoSocket s m := (noSocket_iff (by rw [hm]; nofun)).not.mpr hnothing
    have heffect : Effect m d ↔ ∀ x ∈ ss.eraseIdx it, x.localEndpoint ≠ some m.hostPort := by
      simp only [Effect, hm, hleft]
    rw [and_iff_left hnothing, truthful_of_supported hs hn, heffect, hack, closeAck_success, hfind]
    simp

theorem close_truthful (hm : m.command = .close) (h : processClose cfg s os m = some d) :
    Truthful s m d ↔ Honest s os m ∧ ¬ NothingThere s m := by
  have hsupported : Supported m ↔ m.transport.isTcp = true ∨ m.transport.isUdp = true := by simp only [Supported, hm]
  simp only [Honest, hm]
  obtain ⟨api, errorCode, rfl, ⟨htcp, hcall⟩ | ⟨hudp, hcall⟩ | ⟨htcp, hudp, rfl, rfl⟩⟩ := processClose_cases h
  · rw [and_iff_right (Or.inl htcp)]
    have hss : ∀ a : Api, portSockets a m = a.tcpListening := fun a => if_pos htcp
    rw [hss]
    refine close_search_truthful hm (hsupported.mpr (Or.inl htcp)) (hss _) rfl ?_
    rcases closeTcp_cases hcall with ⟨hfind, herr, -⟩ | ⟨it, hfind, herr, rfl⟩
    · exact Or.inl ⟨hfind, herr⟩
    · exact Or.inr ⟨it, hfind, herr, hss _⟩
  · rw [and_iff_right (Or.inr hudp)]
    have hss : ∀ a : Api, portSockets a m = a.udp := fun a => if_neg (by rw [isTcp_of_not hudp]; exact Bool.false_ne_true)
    rw [hss]
    refine close_search_truthful hm (hsupported.mpr (Or.inr hudp)) (hss _) rfl ?_
    rcases closeUdp_cases hcall with ⟨hfind, -, herr⟩ | ⟨it, hfind, herr, rfl⟩
    · exact Or.inl ⟨hfind, herr⟩
    · exact Or.inr ⟨it, hfind, herr, hss _⟩
  · rw [truthful_of_unsupported (Or.inl (by rw [hsupported, htcp, hudp]; simp)), htcp, hudp]
    exact iff_of_false nofun (by simp)

theorem ackOf_success {e : Option SysError} : ackOf (e.map .system) = .success ↔ e = none := by
  cases e <;> simp [ackOf]

/-- What a send over a socket that is there comes to. -/
theorem taken_effect {ss : List Socket} {it n : Nat} {x : Socket} (hget : ss[it]? = some x) (hx : IsSender m x) :
    (∃ it' x', takenBy it os = some (it', n) ∧ ss[it']? = some x' ∧ IsSender m x') ↔ os.send = none ∧ os.nSent = n := by
  unfold takenBy
  cases hsend : os.send with
  | none =>
    simp only [Option.isSome_none, Bool.false_eq_true, if_false, Option.some_inj, Prod.mk.injEq, true_and]
    constructor
    · intro h
      rcases h with ⟨it', x', ⟨-, hn⟩, -⟩
      exact hn
    · intro hn
      exact ⟨it, x, ⟨rfl, hn⟩, hget, hx⟩
  | some e => simp

theorem noSocket_send (hm : m.command = .send) :
    NoSocket s m ↔ m.transport.isTcp = true ∧ ∀ x ∈ s.api.tcpConnected, ¬ IsConnection m.remote m.hostPort x := by
  rw [NoSocket, or_iff_right (not_nothingThere (by rw [hm]; nofun) (by rw [hm]; nofun)), and_iff_right hm]

theorem sendTcp_truthful {sent : Sent} (hm : m.command = .send) (htcp : m.transport.isTcp = true)
    (hcall : s.api.sendToTcp os m.remote m.hostPort none = some sent)
    (hd : d = { state := s, message := { m with hostPort := sent.aLocalPort, ack := ackOf sent.aErr }, taken := sent.taken }) :
    Truthful s m d ↔
      s.api.findConnected m.remote m.hostPort ≠ some none ∧ (os.send = none → os.nSent = payloadSize m) := by
  have hsupported : Supported m := by
    simp only [Supported, hm]
    exact Or.inl htcp
  subst hd
  rcases sendToTcp_cases hcall with ⟨hfind, rfl⟩ | ⟨it, hfind, rfl⟩
  · rw [truthful_of_unsupported (Or.inr (Or.inr ⟨hm, htcp, findConnected_none hfind⟩)), hfind]
    exact iff_of_false nofun (fun h => h.1 rfl)
  · obtain ⟨x, hget, hx⟩ := findConnected_some hfind
    have hn : ¬ NoSocket s m := by
      rw [noSocket_send hm]
      exact fun hn => hn.2 x (List.mem_of_getElem? hget) hx
    have hsender : IsSender m x := by
      rw [IsSender, if_pos htcp]
      exact hx
    have hget' : (senders s.api m)[it]? = some x := by
      rw [senders, if_pos htcp]
      exact hget
    rw [truthful_of_supported hsupported hn, hfind]
    simp only [Effect, hm, ackOf_success, taken_effect hget' hsender]
    constructor
    · intro h
      exact ⟨nofun, fun hsend => (h hsend).2⟩
    · intro h hsend
      rcases h with ⟨-, h⟩
      exact ⟨hsend, h hsend⟩

/-- A socket made to send from is the one the request names, if it has been bound, or any will do. -/
theorem created_isSender (hudp : m.transport.isUdp = true) (hopen : os.open_ = none) (hsend : os.send = none) :
    IsSender m (sendFrom (created os m.hostPort) os) ↔ m.hostPort = 0 ∨ (os.bind.isSome = true → os.ephemeral = m.hostPort) := by
  rw [IsSender, isTcp_of_not hudp, if_neg Bool.false_ne_true, sendFrom_localEndpoint hopen hsend, Option.some_inj]
  refine or_congr_right' fun hport => ?_
  unfold sentFrom
  cases os.bind with
  | none =>
    refine iff_of_true ?_ nofun
    show os.bound m.hostPort = m.hostPort
    rw [Os.bound, if_neg hport]
  | some e => simp

theorem sendUdp_truthful {api : Api} {sent : Sent} (hm : m.command = .send) (hudp : m.transport.isUdp = true)
    (hcall : s.api.sendToUdp os m.hostPort = some (api, sent))
    (hd : d = { state := { s with api := api },
                message := { m with hostPort := sent.aLocalPort, ack := ackOf sent.aErr }, taken := sent.taken }) :
    Truthful s m d ↔
      ((s.api.findSender m.hostPort = some none → os.open_ = none) → os.send = none → os.nSent = payloadSize m) ∧
      (s.api.findSender m.hostPort = some none → os.open_ = none → os.send = none →
        m.hostPort = 0 ∨ (os.bind.isSome = true → os.ephemeral = m.hostPort)) := by
  have htcp := isTcp_of_not hudp
  have hsupported : Supported m := by
    simp only [Supported, hm]
    exact Or.inr hudp
  have hn : ¬ NoSocket s m := by
    rw [noSocket_send hm, htcp]
    exact fun hn => nomatch hn.1
  subst hd
  rw [truthful_of_supported hsupported hn]
  rcases sendToUdp_cases hcall with ⟨it, hfind, rfl, rfl⟩ | ⟨hfind, rfl, rfl⟩
  · have hport : m.hostPort ≠ 0 := by
      intro hport
      rw [findSender, if_pos hport] at hfind
      cases hfind
    rw [findSender, if_neg hport] at hfind
    obtain ⟨x, hget, hx⟩ := findPort_some hfind
    have hsender : IsSender m x := by
      rw [IsSender, htcp, if_neg Bool.false_ne_true]
      exact Or.inr hx
    have hget' : (senders s.api m)[it]? = some x := by
      rw [senders, htcp, if_neg Bool.false_ne_true]
      exact hget
    rw [findSender, if_neg hport, hfind]
    simp only [Effect, hm, ackOf_success, taken_effect hget' hsender]
    constructor
    · intro h
      exact ⟨fun _ hsend => (h hsend).2, nofun⟩
    · intro h hsend
      rcases h with ⟨h, -⟩
      exact ⟨hsend, h nofun hsend⟩
  · have hsenders : senders { s.api with udp := s.api.udp ++ [sendFrom (created os m.hostPort) os] } m =
        s.api.udp ++ [sendFrom (created os m.hostPort) os] := by
      rw [senders, htcp, if_neg Bool.false_ne_true]
    rw [hfind]
    simp only [Effect, hm, ackOf_success, hsenders, forall_const, sendError_none]
    by_cases hok : os.open_ = none ∧ os.send = none
    · have hnone : sendError (created os m.hostPort) os = none := sendError_none.mpr hok
      simp only [hnone, Option.isSome_none, Bool.false_eq_true, if_false, hok, forall_const, and_self,
        ← created_isSender hudp hok.1 hok.2, Option.some_inj, Prod.mk.injEq]
      constructor
      · intro h
        rcases h with ⟨it, x, ⟨rfl, hn⟩, hget, hx⟩
        rw [List.getElem?_concat_length] at hget
        obtain rfl := Option.some_inj.mp hget
        exact ⟨hn, hx⟩
      · intro h
        rcases h with ⟨hn, hx⟩
        exact ⟨_, _, ⟨rfl, hn⟩, List.getElem?_concat_length, hx⟩
    · constructor
      · intro _
        exact ⟨fun hopen hsend => absurd ⟨hopen, hsend⟩ hok, fun hopen hsend => absurd ⟨hopen, hsend⟩ hok⟩
      · intro _ hok'
        exact absurd hok' hok

theorem send_truthful (hm : m.command = .send) (h : processSend s os m = some d) :
    Truthful s m d ↔ Honest s os m := by
  simp only [Honest, hm]
  obtain ⟨api, sent, hd, ⟨htcp, rfl, hcall⟩ | ⟨hudp, hcall⟩ | ⟨htcp, hudp, rfl, rfl⟩⟩ := processSend_cases h
  · rw [if_pos htcp]
    exact sendTcp_truthful hm htcp hcall hd
  · rw [isTcp_of_not hudp, if_neg Bool.false_ne_true, and_iff_right hudp]
    exact sendUdp_truthful hm hudp hcall hd
  · have hnot : ¬ Supported m := by
      simp only [Supported, hm, htcp, hudp]
      simp
    subst hd
    rw [truthful_of_unsupported (Or.inl hnot), htcp, hudp]
    exact iff_of_false nofun (by simp)

end

/-- **Acknowledgements.** In every state of the sockets, the answer to a request is truthful
    exactly when its socket, if it is to be closed or disconnected, is there, and the condition holds. -/
theorem truthful_iff (closeCliDisconnect : Bool) (s : State) (os : Os) (m : Message) (ret : Microservice.Ret) (d : Done)
    (h : process closeCliDisconnect s os m = some (ret, some d)) :
    Truthful s m d ↔ Honest s os m ∧ ¬ NothingThere s m := by
  rcases process_cases h with ⟨-, hnone⟩ | ⟨hreq, hcarry⟩
  · cases hnone
  · unfold carryOut at hcarry
    cases hm : m.command <;> rw [hm] at hcarry <;>
      simp only [Option.map_eq_some_iff, Option.some_inj, exists_eq_right] at hcarry
    case disconnect => exact disconnect_truthful hm hcarry
    case close => exact close_truthful hm hcarry
    case other => cases hcarry
    all_goals
      have hthere : ¬ NothingThere s m := not_nothingThere (by rw [hm]; nofun) (by rw [hm]; nofun)
      rw [and_iff_left hthere]
    case connect => exact connect_truthful hm hcarry
    case send => exact send_truthful hm hcarry
    case open_ => exact open_truthful hm hcarry
    case processReceived =>
      subst hcarry
      have hsupported : Supported m := by simp only [Supported, hm]
      have hn : ¬ NoSocket s m := not_noSocket (by rw [hm]; nofun) (by rw [hm]; nofun) (by rw [hm]; nofun)
      rw [truthful_of_supported hsupported hn]
      refine iff_of_true ?_ (by simp only [Honest, hm])
      intro hack
      simp only [Effect, hm]

/-- A request to send over a connection from port 5000 that has not been made. -/
def sendRequest : Message := { hostPort := 5000, remotePort := 80, command := .send, transport := .tcp4,
                               payloadLen := 6, payload := [10, 0, 0, 1, 1, 2] }

/-- The same request behind its connection. -/
theorem a_send_over_a_connection_is_answered_truthfully :
    let s : State := ⟨{ tcpConnected := [{ localPort := 5000, remote := some sendRequest.remote }] }, {}⟩
    let d : Done := { state := s, message := { sendRequest with ack := .success }, taken := some (0, 2) }
    Truthful s sendRequest d :=
  (truthful_iff true ⟨{ tcpConnected := [{ localPort := 5000, remote := some sendRequest.remote }] }, {}⟩
    { nSent := 2 } sendRequest .response _ rfl).mpr ⟨⟨by decide, fun _ => rfl⟩, id⟩

/-- Nothing is connected, nothing is sent, and the answer is SUCCESS. -/
theorem a_send_without_a_connection_is_acknowledged :
    ∃ d, process true ⟨{}, {}⟩ {} sendRequest = some (.response, some d) ∧ d.message.ack = .success ∧ d.taken = none ∧
      ¬ Truthful ⟨{}, {}⟩ sendRequest d := by
  refine ⟨{ state := ⟨{}, {}⟩, message := { sendRequest with ack := .success } }, rfl, rfl, rfl, ?_⟩
  intro h
  have hfail := h.fail (Or.inr (Or.inr ⟨rfl, rfl, nofun⟩))
  cases hfail

end Esp32Cam.Mav.GsNetwork
