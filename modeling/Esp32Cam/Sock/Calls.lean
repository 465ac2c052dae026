/-
  Esp32Cam.Sock.Calls — what each call and each handler can do.

  One lemma for each of them: the cases it has, with what the search has found, what the
  system has answered, and the lists and the error it leaves. The proofs about the lists
  of sockets take the calls apart with these and never open their definitions.
-/

import Esp32Cam.Sock.Api

namespace Esp32Cam.Sock

open Esp32Cam.Lib
open Esp32Cam.Asio (Endpoint)

theorem Os.bound_ne_zero (os : Os) (aLocalPort : UInt16) : os.bound aLocalPort ≠ 0 := by
  unfold Os.bound
  split
  · exact os.ephemeral.property
  · assumption

namespace Api

variable {a a' : Api} {os : Os} {cfg : Bool} {aErr : Option Error} {remote : Endpoint} {port port' : UInt16}

theorem lock_eq_some {α : Type} {call : Option α} {x : α} (h : a.lock call = some x) : call = some x := by
  unfold lock at h
  split at h
  · cases h
  · exact h

/-! ## The searches -/

section
variable {ss : List Socket} {it : Nat}

theorem findPort_none (h : findPort port ss = some none) : ∀ x ∈ ss, x.localEndpoint ≠ some port := by
  intro x hx hport
  have hfalse := findIf_none h x hx
  simp [hport] at hfalse

theorem findPort_some (h : findPort port ss = some (some it)) : ∃ x, ss[it]? = some x ∧ x.localEndpoint = some port := by
  obtain ⟨x, hget, hx⟩ := findIf_getElem h
  refine ⟨x, hget, ?_⟩
  simpa using hx

def IsConnection (remote : Endpoint) (port : UInt16) (x : Socket) : Prop :=
  x.remoteEndpoint = some remote ∧ (port = 0 ∨ x.localEndpoint = some port)

instance (remote : Endpoint) (port : UInt16) (x : Socket) : Decidable (IsConnection remote port x) :=
  inferInstanceAs (Decidable (_ ∧ _))

theorem findRemotePort_none (h : findRemotePort remote port ss = some none) :
    ∀ x ∈ ss, ¬ (x.remoteEndpoint = some remote ∧ x.localEndpoint = some port) := by
  intro x hx h
  rcases h with ⟨hremote, hport⟩
  have hfalse := findIf_none h x hx
  simp [hremote, hport] at hfalse

theorem findRemotePort_some (h : findRemotePort remote port ss = some (some it)) :
    ∃ x, ss[it]? = some x ∧ x.remoteEndpoint = some remote ∧ x.localEndpoint = some port := by
  obtain ⟨x, hget, hx⟩ := findIf_getElem h
  refine ⟨x, hget, ?_⟩
  split at hx
  · cases hx
  · rename_i remote' hremote
    simp only [Option.map_eq_some_iff, Bool.and_eq_true, beq_iff_eq] at hx
    obtain ⟨port', hport, rfl, rfl⟩ := hx
    exact ⟨hremote, hport⟩

theorem findConnected_some (h : a.findConnected remote port = some (some it)) :
    ∃ x, a.tcpConnected[it]? = some x ∧ IsConnection remote port x := by
  unfold findConnected at h
  split at h
  · rename_i hport
    obtain ⟨x, hget, hx⟩ := findIf_getElem h
    refine ⟨x, hget, ?_, Or.inl hport⟩
    split at hx
    · cases hx
    · rename_i remote' hremote
      simp only [Option.some_inj, beq_iff_eq] at hx
      rw [hremote, hx]
  · obtain ⟨x, hget, hremote, hport⟩ := findRemotePort_some h
    exact ⟨x, hget, hremote, Or.inr hport⟩

theorem findConnected_none (h : a.findConnected remote port = some none) :
    ∀ x ∈ a.tcpConnected, ¬ IsConnection remote port x := by
  unfold findConnected at h
  split at h
  · intro x hx h
    rcases h with ⟨hremote, -⟩
    have hfalse := findIf_none h x hx
    simp [hremote] at hfalse
  · rename_i hne
    intro x hx h
    rcases h with ⟨hremote, hport⟩
    exact findRemotePort_none h x hx ⟨hremote, hport.resolve_left hne⟩

end

/-! ## The calls -/

/-- A call that searches has one result where there is no such socket, and another one where there is. -/
theorem search_cases {α : Type} {search : Option (Option Nat)} {missing : α} {found : Nat → α} {x : α}
    (h : (match search with
      | none => none
      | some none => some missing
      | some (some it) => some (found it)) = some x) :
    (search = some none ∧ missing = x) ∨ ∃ it, search = some (some it) ∧ found it = x := by
  split at h
  · cases h
  · exact Or.inl ⟨rfl, Option.some_inj.mp h⟩
  · rename_i it
    exact Or.inr ⟨it, rfl, Option.some_inj.mp h⟩

/-- A call that looks for what must not be there yet has the results the other way round. -/
theorem search_cases_found {α : Type} {search : Option (Option Nat)} {missing : α} {found : Nat → α} {x : α}
    (h : (match search with
      | none => none
      | some (some it) => some (found it)
      | some none => some missing) = some x) :
    (∃ it, search = some (some it) ∧ found it = x) ∨ (search = some none ∧ missing = x) := by
  split at h
  · cases h
  · rename_i it
    exact Or.inl ⟨it, rfl, Option.some_inj.mp h⟩
  · exact Or.inr ⟨rfl, Option.some_inj.mp h⟩

theorem connect_cases (h : a.connect os remote port = some (a', port', aErr)) :
    (∃ it, a.findConnected remote port = some (some it) ∧ a' = a ∧ aErr = some .alreadyConnected) ∨
    (∃ e, a.findConnected remote port = some none ∧ connectError os port = some e ∧ a' = a ∧
      aErr = some (.system e)) ∨
    (a.findConnected remote port = some none ∧ connectError os port = none ∧ aErr = none ∧
      a' = { a with tcpConnected := a.tcpConnected ++ [connected os remote port] }) := by
  have h := lock_eq_some h
  split at h
  · cases h
  · rename_i it hfind
    obtain ⟨rfl, -, rfl⟩ := by simpa only [Option.some_inj, Prod.mk.injEq] using h
    exact Or.inl ⟨it, hfind, rfl, rfl⟩
  · rename_i hfind
    split at h
    · rename_i e herr
      obtain ⟨rfl, -, rfl⟩ := by simpa only [Option.some_inj, Prod.mk.injEq] using h
      exact Or.inr (Or.inl ⟨e, hfind, herr, rfl, rfl⟩)
    · rename_i herr
      split at h
      · cases h
      · obtain ⟨rfl, -, rfl⟩ := by simpa only [Option.some_inj, Prod.mk.injEq] using h
        exact Or.inr (Or.inr ⟨hfind, herr, rfl, rfl⟩)

theorem disconnect_cases (h : a.disconnect os remote port = some (a', aErr)) :
    (findRemotePort remote port a.tcpConnected = some none ∧ a' = a ∧ aErr = some .notConnected) ∨
    (∃ it, findRemotePort remote port a.tcpConnected = some (some it) ∧ aErr = os.close.map .system ∧
      a' = { a with tcpConnected := a.tcpConnected.eraseIdx it }) := by
  rcases search_cases (lock_eq_some h) with ⟨hfind, hr⟩ | ⟨it, hfind, hr⟩
  · obtain ⟨rfl, rfl⟩ := Prod.mk.inj hr
    exact Or.inl ⟨hfind, rfl, rfl⟩
  · obtain ⟨rfl, rfl⟩ := Prod.mk.inj hr
    exact Or.inr ⟨it, hfind, rfl, rfl⟩

theorem openTcp_cases (h : a.openTcp os port = some (a', aErr)) :
    (∃ it, findPort port a.tcpListening = some (some it) ∧ a' = a ∧ aErr = some .alreadyOpen) ∨
    (findPort port a.tcpListening = some none ∧ aErr = (openTcpError os).map .system ∧
      a' = { a with tcpListening := a.tcpListening ++ [opened os port (openTcpError os)] }) := by
  rcases search_cases_found (lock_eq_some h) with ⟨it, hfind, hr⟩ | ⟨hfind, hr⟩
  · obtain ⟨rfl, rfl⟩ := Prod.mk.inj hr
    exact Or.inl ⟨it, hfind, rfl, rfl⟩
  · obtain ⟨rfl, rfl⟩ := Prod.mk.inj hr
    exact Or.inr ⟨hfind, rfl, rfl⟩

theorem openUdp_cases (h : a.openUdp os port = some (a', aErr)) :
    (∃ it, findPort port a.udp = some (some it) ∧ a' = a ∧ aErr = some .alreadyOpen) ∨
    (findPort port a.udp = some none ∧ aErr = (openUdpError os).map .system ∧
      a' = { a with udp := a.udp ++ [opened os port (openUdpError os)] }) := by
  rcases search_cases_found (lock_eq_some h) with ⟨it, hfind, hr⟩ | ⟨hfind, hr⟩
  · obtain ⟨rfl, rfl⟩ := Prod.mk.inj hr
    exact Or.inl ⟨it, hfind, rfl, rfl⟩
  · obtain ⟨rfl, rfl⟩ := Prod.mk.inj hr
    exact Or.inr ⟨hfind, rfl, rfl⟩

theorem closeUdp_cases (h : a.closeUdp os port = some (a', aErr)) :
    (findPort port a.udp = some none ∧ a' = a ∧ aErr = some .notFound) ∨
    (∃ it, findPort port a.udp = some (some it) ∧ aErr = os.close.map .system ∧
      a' = { a with udp := a.udp.eraseIdx it }) := by
  rcases search_cases (lock_eq_some h) with ⟨hfind, hr⟩ | ⟨it, hfind, hr⟩
  · obtain ⟨rfl, rfl⟩ := Prod.mk.inj hr
    exact Or.inl ⟨hfind, rfl, rfl⟩
  · obtain ⟨rfl, rfl⟩ := Prod.mk.inj hr
    exact Or.inr ⟨it, hfind, rfl, rfl⟩

def remaining (closeCliDisconnect : Bool) (a : Api) (aPort : UInt16) : List Socket :=
  if closeCliDisconnect then a.tcpConnected.filter (!isClient aPort ·) else a.tcpConnected

theorem disconnectClients_eq (h : disconnectClients cfg a os port = some a') :
    a' = { a with tcpConnected := remaining cfg a port } := by
  unfold disconnectClients at h
  cases cfg with
  | false =>
    obtain rfl := Option.some_inj.mp h
    rfl
  | true =>
    simp only [Bool.not_true, Bool.false_eq_true, if_false] at h
    split at h
    · cases h
    · exact (Option.some_inj.mp h).symm

theorem closeTcp_cases (h : a.closeTcp cfg os port = some (a', aErr)) :
    (findPort port a.tcpListening = some none ∧ aErr = some .notFound ∧
      a' = { a with tcpConnected := remaining cfg a port }) ∨
    (∃ it, findPort port a.tcpListening = some (some it) ∧ aErr = os.close.map .system ∧
      a' = { a with tcpConnected := remaining cfg a port, tcpListening := a.tcpListening.eraseIdx it }) := by
  have h := lock_eq_some h
  split at h
  · cases h
  · rename_i a₁ hclients
    obtain rfl := disconnectClients_eq hclients
    rcases search_cases h with ⟨hfind, hr⟩ | ⟨it, hfind, hr⟩
    · obtain ⟨rfl, rfl⟩ := Prod.mk.inj hr
      exact Or.inl ⟨hfind, rfl, rfl⟩
    · obtain ⟨rfl, rfl⟩ := Prod.mk.inj hr
      exact Or.inr ⟨it, hfind, rfl, rfl⟩

theorem sendToTcp_cases {sent : Sent} (h : a.sendToTcp os remote port aErr = some sent) :
    (a.findConnected remote port = some none ∧ sent = ⟨port, aErr, none⟩) ∨
    (∃ it, a.findConnected remote port = some (some it) ∧ sent = ⟨port, os.send.map .system, takenBy it os⟩) := by
  rcases search_cases (lock_eq_some h) with ⟨hfind, hr⟩ | ⟨it, hfind, hr⟩
  · exact Or.inl ⟨hfind, hr.symm⟩
  · exact Or.inr ⟨it, hfind, hr.symm⟩

/-- The UDP socket a send from the port uses; there is none for port 0. -/
def findSender (a : Api) (aLocalPort : UInt16) : Option (Option Nat) :=
  if aLocalPort = 0 then some none else findPort aLocalPort a.udp

theorem sendToUdp_cases {sent : Sent} (h : a.sendToUdp os port = some (a', sent)) :
    (∃ it, a.findSender port = some (some it) ∧ a' = a ∧ sent = ⟨port, os.send.map .system, takenBy it os⟩) ∨
    (a.findSender port = some none ∧ a' = { a with udp := a.udp ++ [sendFrom (created os port) os] } ∧
      sent = ⟨createdPort os port, (sendError (created os port) os).map .system,
        if (sendError (created os port) os).isSome then none else some (a.udp.length, os.nSent)⟩) := by
  rcases search_cases_found (lock_eq_some h) with ⟨it, hfind, hr⟩ | ⟨hfind, hr⟩
  · obtain ⟨rfl, rfl⟩ := Prod.mk.inj hr
    exact Or.inl ⟨it, hfind, rfl, rfl⟩
  · obtain ⟨rfl, rfl⟩ := Prod.mk.inj hr
    exact Or.inr ⟨hfind, rfl, rfl⟩

/-- The port a socket that a send has created sends from. -/
def sentFrom (os : Os) (port : UInt16) : UInt16 := if os.bind.isSome then os.ephemeral else os.bound port

/-- The port a socket has that a send has created and gone through on. -/
theorem sendFrom_localEndpoint {port : UInt16} (hopen : os.open_ = none) (hsend : os.send = none) :
    (sendFrom (created os port) os).localEndpoint = some (sentFrom os port) := by
  have hne := os.bound_ne_zero port
  unfold sendFrom created bindError sentFrom Socket.localEndpoint
  cases hbind : os.bind <;> simp [hopen, hsend, hne]

/-- A created socket that is not open takes nothing. -/
theorem sendError_none {port : UInt16} : sendError (created os port) os = none ↔ os.open_ = none ∧ os.send = none := by
  unfold sendError created
  cases hopen : os.open_ <;> simp

/-! ## The handlers -/

variable {it : Nat}

theorem onAccept_cases {peer : Option Endpoint} (h : a.onAccept it peer = some a') :
    a' = a ∨ ∃ acceptor, a.tcpListening[it]? = some acceptor ∧ acceptor.pending = true ∧
      a' = { a with tcpConnected := a.tcpConnected ++ [accepted acceptor peer] } := by
  unfold onAccept at h
  split at h
  · exact Or.inl (Option.some_inj.mp h).symm
  · rename_i acceptor hget
    split at h
    · exact Or.inl (Option.some_inj.mp h).symm
    · rename_i hpending
      have h := lock_eq_some h
      exact Or.inr ⟨acceptor, hget, by simpa using hpending, (Option.some_inj.mp h).symm⟩

theorem onAcceptError_cases {aError : Error} (h : a.onAcceptError it aError = some a') :
    a' = a ∨ ∃ mutex, a' = { a with tcpListening := settle it a.tcpListening, syncAsyncMutex := mutex } := by
  unfold onAcceptError at h
  split at h
  · exact Or.inl (Option.some_inj.mp h).symm
  · split at h
    · exact Or.inl (Option.some_inj.mp h).symm
    · dsimp only at h
      split at h
      · exact Or.inr ⟨a.syncAsyncMutex, (Option.some_inj.mp h).symm⟩
      · have h := lock_eq_some h
        exact Or.inr ⟨true, (Option.some_inj.mp h).symm⟩

theorem onUdpReceiveError_cases {aError : Error} (h : a.onUdpReceiveError os it aError = some a') :
    (a' = a ∧ ∀ x, a.udp[it]? = some x → x.pending = false) ∨
    (aError = .operationAborted ∧ a' = { a with udp := settle it a.udp }) ∨
    ∃ socket port' aErr', a.udp[it]? = some socket ∧ socket.pending = true ∧ aError ≠ .operationAborted ∧
      socket.localEndpoint = some port' ∧ Api.closeUdp { a with udp := settle it a.udp } os port' = some (a', aErr') := by
  unfold onUdpReceiveError at h
  split at h
  · rename_i hget
    exact Or.inl ⟨(Option.some_inj.mp h).symm, by rw [hget]; nofun⟩
  · rename_i socket hget
    split at h
    · rename_i hpending
      refine Or.inl ⟨(Option.some_inj.mp h).symm, ?_⟩
      intro x hx
      obtain rfl := Option.some_inj.mp (hget.symm.trans hx)
      simpa using hpending
    · rename_i hpending
      dsimp only at h
      split at h
      · rename_i haborted
        exact Or.inr (Or.inl ⟨haborted, (Option.some_inj.mp h).symm⟩)
      · rename_i haborted
        split at h
        · cases h
        · rename_i port' hport
          obtain ⟨⟨a₁, aErr'⟩, hclose, rfl⟩ := Option.map_eq_some_iff.mp h
          exact Or.inr (Or.inr ⟨socket, port', aErr', hget, by simpa using hpending, haborted, hport, hclose⟩)

/-- The error ends a connection that still has both its endpoints. -/
def Ended (a : Api) (it : Nat) (aErr : Error) (socket : Socket) (remote : Endpoint) (port : UInt16) : Prop :=
  a.tcpConnected[it]? = some socket ∧ socket.pending = true ∧ aErr.ends = true ∧
    socket.remoteEndpoint = some remote ∧ socket.localEndpoint = some port

theorem onTcpReceiveError_cases {aError : Error} (h : a.onTcpReceiveError os it aError = some a') :
    ((a' = a ∨ a' = { a with tcpConnected := settle it a.tcpConnected }) ∧
      ∀ socket remote' port', ¬ a.Ended it aError socket remote' port') ∨
    ∃ socket remote' port' aErr', a.Ended it aError socket remote' port' ∧
      Api.disconnect { a with tcpConnected := settle it a.tcpConnected } os remote' port' = some (a', aErr') := by
  unfold onTcpReceiveError at h
  split at h
  · rename_i hget
    refine Or.inl ⟨Or.inl (Option.some_inj.mp h).symm, ?_⟩
    intro socket remote' port' h
    rcases h with ⟨hget', -⟩
    rw [hget] at hget'
    cases hget'
  · rename_i socket hget
    split at h
    · rename_i hpending
      refine Or.inl ⟨Or.inl (Option.some_inj.mp h).symm, ?_⟩
      intro socket' remote' port' h
      rcases h with ⟨hget', hpending', -⟩
      obtain rfl := Option.some_inj.mp (hget.symm.trans hget')
      rw [hpending'] at hpending
      cases hpending
    · rename_i hpending
      dsimp only at h
      split at h
      · rename_i hends
        refine Or.inl ⟨Or.inr (Option.some_inj.mp h).symm, ?_⟩
        intro socket' remote' port' h
        rcases h with ⟨-, -, hends', -⟩
        rw [hends'] at hends
        cases hends
      · rename_i hends
        split at h
        · rename_i remote' port' hremote hport
          obtain ⟨⟨a₁, aErr'⟩, hdis, rfl⟩ := Option.map_eq_some_iff.mp h
          exact Or.inr ⟨socket, remote', port', aErr', ⟨hget, by simpa using hpending, by simpa using hends,
            hremote, hport⟩, hdis⟩
        · rename_i hnot
          refine Or.inl ⟨Or.inr (Option.some_inj.mp h).symm, ?_⟩
          intro socket' remote' port' h
          rcases h with ⟨hget', -, -, hremote, hport⟩
          obtain rfl := Option.some_inj.mp (hget.symm.trans hget')
          exact hnot remote' port' hremote hport

/-! ## What every socket is, it stays -/

/-- What is true of the connected and the listening sockets, and of the UDP sockets. -/
structure All (Q R : Socket → Prop) (a : Api) : Prop where
  tcpConnected : ∀ s ∈ a.tcpConnected, Q s
  tcpListening : ∀ s ∈ a.tcpListening, Q s
  udp : ∀ s ∈ a.udp, R s

/-- What does not depend on the operations that wait on a socket, and on its peer. -/
structure Lasting (Q : Socket → Prop) : Prop where
  settled : ∀ s, Q s → Q { s with pending := false }
  lost : ∀ s, Q s → Q { s with remote := none }

variable {Q R : Socket → Prop} {c : Call}

theorem forall_append {ss : List Socket} {s : Socket} (h : ∀ s ∈ ss, Q s) : (∀ s' ∈ ss ++ [s], Q s') ↔ Q s := by
  rw [List.forall_mem_append, List.forall_mem_singleton]
  exact and_iff_right h

theorem forall_eraseIdx {ss : List Socket} (h : ∀ s ∈ ss, Q s) (it : Nat) : ∀ s ∈ ss.eraseIdx it, Q s :=
  fun s hs => h s (List.mem_of_mem_eraseIdx hs)

theorem forall_modify {ss : List Socket} {f : Socket → Socket} (hf : ∀ s, Q s → Q (f s)) (h : ∀ s ∈ ss, Q s)
    (it : Nat) : ∀ s ∈ ss.modify it f, Q s := by
  intro s hs
  obtain ⟨j, hj, rfl⟩ := List.mem_iff_getElem.mp hs
  rw [List.getElem_modify]
  rw [List.length_modify] at hj
  have hget := h _ (List.getElem_mem hj)
  split
  · exact hf _ hget
  · exact hget

theorem forall_settle (hQ : Lasting Q) {ss : List Socket} (h : ∀ s ∈ ss, Q s) (it : Nat) : ∀ s ∈ settle it ss, Q s :=
  forall_modify hQ.settled h it

theorem forall_remaining (h : ∀ s ∈ a.tcpConnected, Q s) (cfg : Bool) (aPort : UInt16) :
    ∀ s ∈ remaining cfg a aPort, Q s := by
  unfold remaining
  split
  · exact fun s hs => h s (List.mem_filter.mp hs).1
  · exact h

theorem disconnect_all (ha : a.All Q R) (h : a.disconnect os remote port = some (a', aErr)) : a'.All Q R := by
  rcases disconnect_cases h with ⟨-, rfl, -⟩ | ⟨it, -, -, rfl⟩
  · exact ha
  · exact ⟨forall_eraseIdx ha.tcpConnected it, ha.tcpListening, ha.udp⟩

theorem closeUdp_all (ha : a.All Q R) (h : a.closeUdp os port = some (a', aErr)) : a'.All Q R := by
  rcases closeUdp_cases h with ⟨-, rfl, -⟩ | ⟨it, -, -, rfl⟩
  · exact ha
  · exact ⟨ha.tcpConnected, ha.tcpListening, forall_eraseIdx ha.udp it⟩

theorem closeTcp_all (ha : a.All Q R) (h : a.closeTcp cfg os port = some (a', aErr)) : a'.All Q R := by
  rcases closeTcp_cases h with ⟨-, -, rfl⟩ | ⟨it, -, -, rfl⟩
  · exact ⟨forall_remaining ha.tcpConnected cfg port, ha.tcpListening, ha.udp⟩
  · exact ⟨forall_remaining ha.tcpConnected cfg port, forall_eraseIdx ha.tcpListening it, ha.udp⟩

theorem handle_all (hQ : Lasting Q) (hR : Lasting R)
    (haccept : ∀ acceptor peer, Q acceptor → acceptor.pending = true → Q (accepted acceptor peer))
    {handler : Handler} (ha : a.All Q R) (h : a.handle handler = some a') : a'.All Q R := by
  cases handler with
  | accept it peer =>
    rcases onAccept_cases h with rfl | ⟨acceptor, hget, hpending, rfl⟩
    · exact ha
    · have hacc := ha.tcpListening acceptor (List.mem_of_getElem? hget)
      exact ⟨(forall_append ha.tcpConnected).mpr (haccept acceptor peer hacc hpending), ha.tcpListening, ha.udp⟩
  | acceptError it aError =>
    rcases onAcceptError_cases h with rfl | ⟨mutex, rfl⟩
    · exact ha
    · exact ⟨ha.tcpConnected, forall_settle hQ ha.tcpListening it, ha.udp⟩
  | udpReceiveError os it aError =>
    have hsettled : All Q R { a with udp := settle it a.udp } :=
      ⟨ha.tcpConnected, ha.tcpListening, forall_settle hR ha.udp it⟩
    rcases onUdpReceiveError_cases h with ⟨rfl, -⟩ | ⟨-, rfl⟩ | ⟨socket, port, aErr', -, -, -, -, hclose⟩
    · exact ha
    · exact hsettled
    · exact closeUdp_all hsettled hclose
  | tcpReceiveError os it aError =>
    have hsettled : All Q R { a with tcpConnected := settle it a.tcpConnected } :=
      ⟨forall_settle hQ ha.tcpConnected it, ha.tcpListening, ha.udp⟩
    rcases onTcpReceiveError_cases h with ⟨rfl | rfl, -⟩ | ⟨socket, remote, port, aErr', -, hdis⟩
    · exact ha
    · exact hsettled
    · exact disconnect_all hsettled hdis
  | peerLost it =>
    obtain rfl := Option.some_inj.mp h
    exact ⟨forall_modify hQ.lost ha.tcpConnected it, ha.tcpListening, ha.udp⟩

/-- A call keeps what is true of every socket, if the socket it may create is no exception. -/
theorem call_all (hQ : Lasting Q) (hR : Lasting R)
    (haccept : ∀ acceptor peer, Q acceptor → acceptor.pending = true → Q (accepted acceptor peer))
    (hconnect : ∀ os remote port, Q (connected os remote port))
    (hopenTcp : ∀ os port, c = .openTcp os port → Q (opened os port (openTcpError os)))
    (hopenUdp : ∀ os port, c = .openUdp os port → R (opened os port (openUdpError os)))
    (hsend : ∀ os port, c = .sendToUdp os port → R (sendFrom (created os port) os))
    (ha : a.All Q R) (h : a.call cfg c = some (a', aErr)) : a'.All Q R := by
  cases c with
  | connect os remote port =>
    obtain ⟨⟨a₁, port', aErr'⟩, hcall, heq⟩ := Option.map_eq_some_iff.mp h
    obtain ⟨rfl, rfl⟩ := Prod.mk.inj heq
    rcases connect_cases hcall with ⟨it, -, rfl, -⟩ | ⟨e, -, -, rfl, -⟩ | ⟨-, -, -, rfl⟩
    · exact ha
    · exact ha
    · exact ⟨(forall_append ha.tcpConnected).mpr (hconnect os remote port), ha.tcpListening, ha.udp⟩
  | disconnect os remote port => exact disconnect_all ha h
  | openTcp os port =>
    rcases openTcp_cases h with ⟨it, -, rfl, -⟩ | ⟨-, -, rfl⟩
    · exact ha
    · exact ⟨ha.tcpConnected, (forall_append ha.tcpListening).mpr (hopenTcp os port rfl), ha.udp⟩
  | openUdp os port =>
    rcases openUdp_cases h with ⟨it, -, rfl, -⟩ | ⟨-, -, rfl⟩
    · exact ha
    · exact ⟨ha.tcpConnected, ha.tcpListening, (forall_append ha.udp).mpr (hopenUdp os port rfl)⟩
  | closeTcp os port => exact closeTcp_all ha h
  | closeUdp os port => exact closeUdp_all ha h
  | sendToTcp os remote port =>
    obtain ⟨sent, -, heq⟩ := Option.map_eq_some_iff.mp h
    obtain ⟨rfl, -⟩ := Prod.mk.inj heq
    exact ha
  | sendToUdp os port =>
    obtain ⟨⟨a₁, sent⟩, hcall, heq⟩ := Option.map_eq_some_iff.mp h
    obtain ⟨rfl, rfl⟩ := Prod.mk.inj heq
    rcases sendToUdp_cases hcall with ⟨it, -, rfl, -⟩ | ⟨-, rfl, -⟩
    · exact ha
    · exact ⟨ha.tcpConnected, ha.tcpListening, (forall_append ha.udp).mpr (hsend os port rfl)⟩
  | handler handler =>
    obtain ⟨a₁, hrun, heq⟩ := Option.map_eq_some_iff.mp h
    obtain ⟨rfl, -⟩ := Prod.mk.inj heq
    exact handle_all hQ hR haccept ha hrun

end Api

end Esp32Cam.Sock
