/-
  Esp32Cam.Mav.GsNetworkRoutes — the return routes of the autopilot's sockets.

  Two stores have to agree: the rules by which what a port receives is packed for the
  autopilot (`routes`), and the sockets the autopilot has been told it has (`held`). Only
  opening and closing a port touch the rules; connecting, sending, accepting, and the
  errors of receiving put sockets into their lists and take them out.

  `routed_iff_along`: the stores agree throughout a run exactly when every step that makes a
  socket makes it on a port that is ruled, and every step that takes a socket away leaves
  the rules as the remaining sockets need them (`Keeps`).
  `a_connection_on_a_port_nobody_opened_has_no_route` is the shortest run where they do not.
-/

import Mathlib.Data.Set.Insert
import Mathlib.Order.BooleanAlgebra.Set
import Esp32Cam.Lib.Agreement
import Esp32Cam.Lib.PartialRun
import Esp32Cam.Sock.OpenSockets
import Esp32Cam.Mav.GsNetwork

namespace Esp32Cam.Mav.GsNetwork

open Esp32Cam.Lib Esp32Cam.Lib.Agreement
open Esp32Cam.Asio (Endpoint)
open Esp32Cam.Bdg (RoutingRules EndpointVariant NamedEndpoint)
open Esp32Cam.Sock
open Esp32Cam.Sock.Api

/-! ## The two stores -/

inductive Proto where
  | tcp | udp
  deriving DecidableEq, Repr

abbrev Key := Proto × UInt16

def Key.origin : Key → EndpointVariant
  | (.tcp, port) => .tcpPort port
  | (.udp, port) => .udpPort port

/-- What a socket on the port receives from. -/
def Key.endpoint (remote : Endpoint) : Key → EndpointVariant
  | (.tcp, port) => .tcpEndpoint remote port
  | (.udp, port) => .udpEndpoint remote port

/-- The ports the rules pack for the autopilot. -/
def routes (r : RoutingRules) : Set Key := { k | r.Ruled k.origin (.named .mavlinkIpPack) }

def sockets (a : Api) : Proto → List Socket
  | .tcp => a.tcpConnected ++ a.tcpListening
  | .udp => a.udp

def marked (ss : List Socket) : Set UInt16 := { port | ∃ s ∈ ss, s.acknowledged = true ∧ s.localEndpoint = some port }

/-- The ports the autopilot has been told it has sockets on. -/
def held (a : Api) : Set Key := keys fun proto => marked (sockets a proto)

/-- Every acknowledged socket has its return route, and no other port has one. -/
structure Routed (s : State) : Prop where
  route : ∀ k ∈ held s.api, ∀ remote, s.rules.reduce (k.endpoint remote) (.named .mavlinkIpPack) =
    (true, .named .mavlinkIpPackForwarded)
  gone : ∀ k, k ∉ held s.api → ¬ s.rules.Ruled k.origin (.named .mavlinkIpPack)

/-! ## The rules -/

/-- The rules for packing are rules for ports, and forward what is packed. -/
structure WfRules (r : RoutingRules) : Prop where
  sorted : r.Sorted
  portsOnly : r.PortsOnly (.named .mavlinkIpPack)
  forwarded : ∀ o x, (o, .named .mavlinkIpPack, x) ∈ r.rulesOf → x = .named .mavlinkIpPackForwarded

section
variable {r : RoutingRules} {k : Key}

theorem origin_injective {k j : Key} (h : k.origin = j.origin) : k = j := by
  rcases k with ⟨_ | _, p⟩ <;> rcases j with ⟨_ | _, q⟩ <;> simp [Key.origin] at h <;> rw [h]

theorem origin_no_alternative (k : Key) : k.origin.asAlternative = [] := by
  rcases k with ⟨_ | _, p⟩ <;> rfl

theorem ruled_forwarded (h : WfRules r) :
    r.Ruled k.origin (.named .mavlinkIpPack) ↔ (k.origin, .named .mavlinkIpPack, .named .mavlinkIpPackForwarded) ∈ r.rulesOf := by
  constructor
  · intro h
    rcases h with ⟨x, hx⟩
    rw [h.forwarded _ x hx] at hx
    exact hx
  · intro hx
    exact ⟨_, hx⟩

theorem reduce_endpoint (h : WfRules r) (remote : Endpoint) :
    r.reduce (k.endpoint remote) (.named .mavlinkIpPack) = (true, .named .mavlinkIpPackForwarded) ↔ k ∈ routes r := by
  show _ ↔ r.Ruled k.origin (.named .mavlinkIpPack)
  rw [ruled_forwarded h]
  rcases k with ⟨_ | _, p⟩
  · exact RoutingRules.reduce_tcpEndpoint h.sorted h.portsOnly remote p _
  · exact RoutingRules.reduce_udpEndpoint h.sorted h.portsOnly remote p _

/-- The two stores agree. -/
theorem routed_iff {s : State} (h : WfRules s.rules) : Routed s ↔ routes s.rules = held s.api := by
  constructor
  · intro hr
    ext k
    constructor
    · intro hk
      by_contra hnot
      exact hr.gone k hnot hk
    · intro hk
      exact (reduce_endpoint h ⟨.v4 (Vector.replicate 4 0), 0⟩).mp (hr.route k hk _)
  · intro heq
    refine ⟨?_, ?_⟩
    · intro k hk remote
      rw [← heq] at hk
      exact (reduce_endpoint h remote).mpr hk
    · intro k hk hruled
      rw [← heq] at hk
      exact hk hruled

theorem addStatic_routes (h : WfRules r) (k : Key) :
    let r' := (r.addStatic k.origin (.named .mavlinkIpPack) (.named .mavlinkIpPackForwarded)).1
    WfRules r' ∧ routes r' = insert k (routes r) := by
  intro r'
  have hsorted : r'.Sorted := RoutingRules.addStatic_sorted h.sorted _
  obtain ⟨hold, hnew⟩ := RoutingRules.addStatic_rulesOf (i := .named .mavlinkIpPack) h.sorted (origin_no_alternative k)
    (.named .mavlinkIpPackForwarded)
  by_cases hruled : k ∈ routes r
  · have hsame : r' = r := hold hruled
    rw [hsame, Set.insert_eq_self.mpr hruled]
    exact ⟨h, rfl⟩
  · have hrules : r'.rulesOf = _ := hnew hruled
    refine ⟨⟨hsorted, ?_, ?_⟩, ?_⟩
    · intro o x hx
      rw [hrules] at hx
      rcases hx with heq | hx
      · obtain ⟨rfl, -⟩ := Prod.mk.inj heq
        rcases k with ⟨_ | _, p⟩
        · exact ⟨p, Or.inl rfl⟩
        · exact ⟨p, Or.inr rfl⟩
      · exact h.portsOnly o x hx
    · intro o x hx
      rw [hrules] at hx
      rcases hx with heq | hx
      · exact (Prod.mk.inj (Prod.mk.inj heq).2).2
      · exact h.forwarded o x hx
    · ext j
      show r'.Ruled _ _ ↔ _
      simp only [RoutingRules.Ruled, hrules, Set.mem_insert_iff, Prod.mk.injEq, true_and, exists_or, exists_eq_right]
      constructor
      · intro h
        rcases h with heq | hx
        · exact Or.inl (origin_injective heq)
        · exact Or.inr hx
      · intro h
        rcases h with rfl | hx
        · exact Or.inl rfl
        · exact Or.inr hx

theorem remove_routes (h : WfRules r) (k : Key) :
    let r' := r.remove k.origin (.named .mavlinkIpPack)
    WfRules r' ∧ routes r' = routes r \ {k} := by
  intro r'
  have hrules := RoutingRules.remove_rulesOf (i := .named .mavlinkIpPack) h.sorted (origin_no_alternative k)
  have hsub : ∀ t ∈ r'.rulesOf, t ∈ r.rulesOf := by
    intro t ht
    rw [hrules] at ht
    exact ht.1
  refine ⟨⟨RoutingRules.remove_sorted h.sorted, ?_, ?_⟩, ?_⟩
  · intro o x hx
    exact h.portsOnly o x (hsub _ hx)
  · intro o x hx
    exact h.forwarded o x (hsub _ hx)
  · ext j
    show (∃ x, _ ∈ r'.rulesOf) ↔ _
    rw [hrules]
    constructor
    · intro h
      rcases h with ⟨x, hx, hne⟩
      refine ⟨⟨x, hx⟩, ?_⟩
      intro h
      rcases h with rfl
      exact hne rfl
    · intro h
      rcases h with ⟨⟨x, hx⟩, hne⟩
      refine ⟨x, hx, ?_⟩
      intro heq
      exact hne (origin_injective (Prod.mk.inj heq).1)

end

/-! ## The acknowledged sockets -/

/-- A command that has been acknowledged has asked for this socket. -/
def acknowledge (s : Socket) : Socket := { s with acknowledged := s.acknowledged || s.isOpen }

/-- The sockets behind the first `n` are the ones the command has made. -/
def acknowledgeNew (n : Nat) (ss : List Socket) : List Socket := ss.take n ++ (ss.drop n).map acknowledge

/-- The sockets of a port the command has found open. -/
def acknowledgePort (port : UInt16) (ss : List Socket) : List Socket :=
  ss.map fun s => if s.localEndpoint = some port then acknowledge s else s

/-- What a command acknowledged with success has made, or has asked to be open. -/
def acknowledged (before : Api) (m : Message) (a : Api) : Api :=
  match m.command with
  | .connect => { a with tcpConnected := acknowledgeNew before.tcpConnected.length a.tcpConnected }
  | .send => { a with udp := acknowledgeNew before.udp.length a.udp }
  | .open_ =>
    match m.transport with
    | .tcp4 | .tcp6 =>
      { a with tcpListening := acknowledgePort m.hostPort (acknowledgeNew before.tcpListening.length a.tcpListening) }
    | .udp4 | .udp6 => { a with udp := acknowledgePort m.hostPort (acknowledgeNew before.udp.length a.udp) }
    | .other _ => a
  | _ => a

section
variable {ss ts : List Socket} {x : Socket} {it : Nat}

theorem marked_append (ss ts : List Socket) : marked (ss ++ ts) = marked ss ∪ marked ts := by
  ext port
  simp only [marked, List.mem_append, Set.mem_ofPred_eq, Set.mem_union, or_and_right, exists_or]

theorem marked_of_not (h : x.acknowledged = false) : marked [x] = ∅ := by
  ext port
  simp [marked, h]

theorem localEndpoint_isOpen {port : UInt16} (h : x.localEndpoint = some port) : x.isOpen = true := by
  unfold Socket.localEndpoint at h
  split at h
  · assumption
  · cases h

theorem marked_acknowledge (x : Socket) : marked [acknowledge x] = { port | x.localEndpoint = some port } := by
  ext port
  simp only [marked, List.mem_singleton, exists_eq_left, Set.mem_ofPred_eq]
  constructor
  · intro h
    exact h.2
  · intro h
    refine ⟨?_, h⟩
    simp [acknowledge, localEndpoint_isOpen h]

theorem acknowledgeNew_self (ss : List Socket) : acknowledgeNew ss.length ss = ss := by
  simp [acknowledgeNew]

theorem acknowledgeNew_append (ss : List Socket) (x : Socket) :
    acknowledgeNew ss.length (ss ++ [x]) = ss ++ [acknowledge x] := by
  simp [acknowledgeNew]

theorem marked_acknowledgePort (port : UInt16) (ss : List Socket) :
    marked (acknowledgePort port ss) = marked ss ∪ { q | q = port ∧ ∃ s ∈ ss, s.localEndpoint = some port } := by
  ext q
  simp only [marked, acknowledgePort, List.mem_map, Set.mem_union, Set.mem_ofPred_eq]
  constructor
  · intro h
    rcases h with ⟨-, ⟨s, hs, rfl⟩, hack, hport⟩
    split at hack
    · rename_i hp
      rw [if_pos hp] at hport
      refine Or.inr ⟨?_, s, hs, hp⟩
      exact Option.some_inj.mp (hport.symm.trans hp)
    · rename_i hp
      rw [if_neg hp] at hport
      exact Or.inl ⟨s, hs, hack, hport⟩
  · intro h
    rcases h with ⟨s, hs, hack, hport⟩ | ⟨rfl, s, hs, hport⟩
    · refine ⟨_, ⟨s, hs, rfl⟩, ?_, ?_⟩
      · split
        · simp [acknowledge, hack]
        · exact hack
      · split
        · exact hport
        · exact hport
    · refine ⟨_, ⟨s, hs, rfl⟩, ?_, ?_⟩
      · simp [hport, acknowledge, localEndpoint_isOpen hport]
      · rw [if_pos hport]
        exact hport

theorem marked_modify {f : Socket → Socket} (hack : ∀ s, (f s).acknowledged = s.acknowledged)
    (hport : ∀ s, (f s).localEndpoint = s.localEndpoint) (ss : List Socket) (it : Nat) :
    marked (ss.modify it f) = marked ss := by
  induction ss generalizing it with
  | nil => simp
  | cons s ss ih =>
    cases it with
    | zero =>
      rw [List.modify_zero_cons]
      ext port
      simp [marked, hack, hport]
    | succ it =>
      rw [List.modify_succ_cons, ← List.singleton_append, marked_append, ih, ← marked_append, List.singleton_append]

theorem marked_settle (it : Nat) (ss : List Socket) : marked (settle it ss) = marked ss :=
  marked_modify (f := fun s => { s with pending := false }) (fun _ => rfl) (fun _ => rfl) ss it

/-- The socket at `it`, and the others. -/
theorem marked_eraseIdx (h : ss[it]? = some x) : marked ss = marked (ss.eraseIdx it) ∪ marked [x] := by
  obtain ⟨hlt, rfl⟩ := List.getElem?_eq_some_iff.mp h
  have hsplit : ss = ss.take it ++ ([ss[it]] ++ ss.drop (it + 1)) := by simp
  rw [List.eraseIdx_eq_take_drop_succ, marked_append, Set.union_assoc, Set.union_comm (marked (ss.drop _)),
    ← marked_append, ← marked_append, ← hsplit]

end

/-! ## Commands and events -/

/-- The state behind an answered request; an acknowledged one is put down on its sockets. -/
def settled (s : State) (m : Message) (d : Done) : State :=
  if d.message.ack = .success then { d.state with api := acknowledged s.api m d.state.api } else d.state

inductive Event where
  | command (os : Os) (m : Message)
  | handler (h : Handler)

def step (closeCliDisconnect : Bool) (s : State) : Event → Option State
  | .command os m => (process closeCliDisconnect s os m).map fun (_, answer) =>
    match answer with
    | some done => settled s m done
    | none => s
  | .handler h => (s.api.handle h).map fun api => { s with api }

/-! ## What keeps the stores in agreement -/

/-- The socket is not the autopilot's, or another one of its sockets is on the port. -/
def Shared (rest : List Socket) (x : Socket) : Prop := marked [x] ⊆ marked rest

def DisconnectKeeps (a : Api) (remote : Endpoint) (port : UInt16) : Prop :=
  ∀ it x, findRemotePort remote port a.tcpConnected = some (some it) → a.tcpConnected[it]? = some x →
    Shared (a.tcpConnected.eraseIdx it ++ a.tcpListening) x

/-- A port that is closed with its rule keeps no socket of the autopilot's; one that keeps its rule has to. -/
def CloseKeeps (s : State) (k : Key) (closed : Bool) (rest : List Socket) : Prop :=
  if closed then k.2 ∉ marked rest else k ∈ routes s.rules → k.2 ∈ marked rest

def CloseUdpKeeps (a : Api) (port : UInt16) : Prop :=
  ∀ it x, findPort port a.udp = some (some it) → a.udp[it]? = some x → Shared (a.udp.eraseIdx it) x

/-- What a request must not do to the sockets, given the rules. -/
def CommandKeeps (closeCliDisconnect : Bool) (s : State) (os : Os) (m : Message) : Prop :=
  match m.command with
  | .connect => m.transport.isTcp = true → s.api.findConnected m.remote m.hostPort = some none →
    connectError os m.hostPort = none → (.tcp, os.bound m.hostPort) ∈ routes s.rules
  | .disconnect => DisconnectKeeps s.api m.remote m.hostPort
  | .send => m.transport.isUdp = true → s.api.findSender m.hostPort = some none → os.open_ = none → os.send = none →
    (.udp, sentFrom os m.hostPort) ∈ routes s.rules
  | .open_ =>
    match m.transport with
    | .tcp4 | .tcp6 => findPort m.hostPort s.api.tcpListening = some none → openTcpError os = none → m.hostPort ≠ 0
    | .udp4 | .udp6 => findPort m.hostPort s.api.udp = some none → openUdpError os = none → m.hostPort ≠ 0
    | .other _ => (.udp, m.hostPort) ∈ routes s.rules
  | .close =>
    match m.transport with
    | .tcp4 | .tcp6 =>
      let clients := remaining closeCliDisconnect s.api m.hostPort
      (findPort m.hostPort s.api.tcpListening = some none → m.hostPort ∉ marked clients) ∧
      ∀ it, findPort m.hostPort s.api.tcpListening = some (some it) →
        CloseKeeps s (.tcp, m.hostPort) os.close.isNone (clients ++ s.api.tcpListening.eraseIdx it)
    | .udp4 | .udp6 => ∀ it, findPort m.hostPort s.api.udp = some (some it) →
      CloseKeeps s (.udp, m.hostPort) os.close.isNone (s.api.udp.eraseIdx it)
    | .other _ => (.udp, m.hostPort) ∉ routes s.rules
  | _ => True

/-- A step makes no socket on a port without a rule, and takes none away that its rule is left for. -/
def Keeps (closeCliDisconnect : Bool) (s : State) : Event → Prop
  | .command os m => m.isRequest = true → CommandKeeps closeCliDisconnect s os m
  | .handler (.udpReceiveError _ it aError) => ∀ x port, s.api.udp[it]? = some x → x.pending = true →
    aError ≠ .operationAborted → x.localEndpoint = some port →
    CloseUdpKeeps { s.api with udp := settle it s.api.udp } port
  | .handler (.tcpReceiveError _ it aErr) => ∀ x remote port, s.api.Ended it aErr x remote port →
    DisconnectKeeps { s.api with tcpConnected := settle it s.api.tcpConnected } remote port
  | .handler _ => True

/-! ## What every state keeps -/

def Acked (x : Socket) : Prop := x.acknowledged = true → x.isOpen = true

structure TcpSane (x : Socket) : Prop where
  acked : Acked x
  port : x.isOpen = true ∨ x.pending = true → x.localPort ≠ 0

structure Inv (s : State) : Prop where
  rules : WfRules s.rules
  sockets : s.api.All TcpSane Acked

section
variable {cfg : Bool} {s s' : State} {os : Os} {m : Message} {d : Done}

theorem tcpSane_lasting : Lasting TcpSane where
  settled x h := ⟨h.acked, fun hx => h.port (Or.inl (by simpa using hx))⟩
  lost x h := ⟨h.acked, h.port⟩

theorem acked_lasting : Lasting Acked := ⟨fun _ h => h, fun _ h => h⟩

theorem accepted_sane (acceptor : Socket) (peer : Option Endpoint) (h : TcpSane acceptor)
    (hpending : acceptor.pending = true) : TcpSane (accepted acceptor peer) :=
  ⟨fun _ => rfl, fun _ => h.port (Or.inr hpending)⟩

theorem connected_sane (os : Os) (remote : Endpoint) (port : UInt16) : TcpSane (connected os remote port) :=
  ⟨fun _ => rfl, fun _ => os.bound_ne_zero port⟩

theorem opened_sane (os : Os) (port : UInt16) (e : Option SysError) : TcpSane (opened os port e) := by
  cases e with
  | none => exact ⟨fun _ => rfl, fun _ => os.bound_ne_zero port⟩
  | some e => exact ⟨nofun, fun h => by rcases h with h | h <;> cases h⟩

theorem sendFrom_acked (os : Os) (port : UInt16) : Acked (sendFrom (created os port) os) := by
  intro h
  unfold sendFrom at h
  split at h <;> cases h

theorem call_sane (cfg : Bool) {c : Call} {a a' : Api} {aErr : Option Error} (ha : a.All TcpSane Acked)
    (h : a.call cfg c = some (a', aErr)) : a'.All TcpSane Acked :=
  call_all tcpSane_lasting acked_lasting accepted_sane connected_sane (fun os port _ => opened_sane os port _)
    (fun os port _ => (opened_sane os port _).acked) (fun os port _ => sendFrom_acked os port) ha h

theorem acknowledge_acked {x : Socket} (h : Acked x) : Acked (acknowledge x) := by
  intro hack
  rcases Bool.or_eq_true_iff.mp hack with hack | hopen
  · exact h hack
  · exact hopen

theorem acknowledge_sane {x : Socket} (h : TcpSane x) : TcpSane (acknowledge x) := ⟨acknowledge_acked h.acked, h.port⟩

theorem forall_acknowledgeNew {Q : Socket → Prop} (hQ : ∀ x, Q x → Q (acknowledge x)) {ss : List Socket}
    (h : ∀ x ∈ ss, Q x) (n : Nat) : ∀ x ∈ acknowledgeNew n ss, Q x := by
  intro x hx
  rcases List.mem_append.mp hx with hx | hx
  · exact h x (List.mem_of_mem_take hx)
  · obtain ⟨y, hy, rfl⟩ := List.mem_map.mp hx
    exact hQ y (h y (List.mem_of_mem_drop hy))

theorem forall_acknowledgePort {Q : Socket → Prop} (hQ : ∀ x, Q x → Q (acknowledge x)) {ss : List Socket}
    (h : ∀ x ∈ ss, Q x) (port : UInt16) : ∀ x ∈ acknowledgePort port ss, Q x := by
  intro x hx
  obtain ⟨y, hy, rfl⟩ := List.mem_map.mp hx
  split
  · exact hQ y (h y hy)
  · exact h y hy

theorem acknowledged_all {a : Api} (ha : a.All TcpSane Acked) (before : Api) (m : Message) :
    (acknowledged before m a).All TcpSane Acked := by
  unfold acknowledged
  split
  · exact ⟨forall_acknowledgeNew (Q := TcpSane) (fun _ => acknowledge_sane) ha.tcpConnected _, ha.tcpListening, ha.udp⟩
  · exact ⟨ha.tcpConnected, ha.tcpListening, forall_acknowledgeNew (Q := Acked) (fun _ => acknowledge_acked) ha.udp _⟩
  · split
    · exact ⟨ha.tcpConnected, forall_acknowledgePort (Q := TcpSane) (fun _ => acknowledge_sane)
        (forall_acknowledgeNew (Q := TcpSane) (fun _ => acknowledge_sane) ha.tcpListening _) _, ha.udp⟩
    · exact ⟨ha.tcpConnected, forall_acknowledgePort (Q := TcpSane) (fun _ => acknowledge_sane)
        (forall_acknowledgeNew (Q := TcpSane) (fun _ => acknowledge_sane) ha.tcpListening _) _, ha.udp⟩
    · exact ⟨ha.tcpConnected, ha.tcpListening, forall_acknowledgePort (Q := Acked) (fun _ => acknowledge_acked)
        (forall_acknowledgeNew (Q := Acked) (fun _ => acknowledge_acked) ha.udp _) _⟩
    · exact ⟨ha.tcpConnected, ha.tcpListening, forall_acknowledgePort (Q := Acked) (fun _ => acknowledge_acked)
        (forall_acknowledgeNew (Q := Acked) (fun _ => acknowledge_acked) ha.udp _) _⟩
    · exact ha
  · exact ha

theorem origin_eq (m : Message) : origin m = Key.origin (if m.transport.isTcp then .tcp else .udp, m.hostPort) := by
  unfold origin
  split <;> rfl

theorem openRules_wf (h : WfRules s.rules) (m : Message) (ack : Ack) : WfRules (openRules s m ack) := by
  unfold openRules
  split
  · rw [origin_eq]
    exact (addStatic_routes h _).1
  · exact h

theorem closeRules_wf (h : WfRules s.rules) (m : Message) (ack : Ack) : WfRules (closeRules s m ack) := by
  unfold closeRules
  split
  · rw [origin_eq]
    exact (remove_routes h _).1
  · exact h

theorem carryOut_inv (hi : Inv s) (h : carryOut cfg s os m = some (some d)) : Inv d.state := by
  unfold carryOut at h
  cases hm : m.command <;> rw [hm] at h <;> dsimp only at h
  · simp only [Option.map_eq_some_iff, Option.some_inj, exists_eq_right] at h
    rcases processConnect_cases h with ⟨-, api, hostPort, err, hcall, rfl⟩ | ⟨-, rfl⟩
    · exact ⟨hi.rules, call_sane cfg (c := .connect os m.remote m.hostPort) hi.sockets
        (Option.map_eq_some_iff.mpr ⟨_, hcall, rfl⟩)⟩
    · exact hi
  · simp only [Option.map_eq_some_iff, Option.some_inj, exists_eq_right] at h
    obtain ⟨api, err, hcall, rfl⟩ := processDisconnect_cases h
    exact ⟨hi.rules, disconnect_all hi.sockets hcall⟩
  · simp only [Option.map_eq_some_iff, Option.some_inj, exists_eq_right] at h
    obtain ⟨api, sent, rfl, ⟨-, rfl, -⟩ | ⟨-, hcall⟩ | ⟨-, -, rfl, -⟩⟩ := processSend_cases h
    · exact hi
    · exact ⟨hi.rules, call_sane cfg (c := .sendToUdp os m.hostPort) hi.sockets
        (Option.map_eq_some_iff.mpr ⟨_, hcall, rfl⟩)⟩
    · exact hi
  · simp only [Option.map_eq_some_iff, Option.some_inj, exists_eq_right] at h
    obtain ⟨api, errorCode, rfl, ⟨-, hcall⟩ | ⟨-, hcall⟩ | ⟨-, -, rfl, -⟩⟩ := processOpen_cases h
    · exact ⟨openRules_wf hi.rules m _, call_sane cfg (c := .openTcp os m.hostPort) hi.sockets hcall⟩
    · exact ⟨openRules_wf hi.rules m _, call_sane cfg (c := .openUdp os m.hostPort) hi.sockets hcall⟩
    · exact ⟨openRules_wf hi.rules m _, hi.sockets⟩
  · simp only [Option.map_eq_some_iff, Option.some_inj, exists_eq_right] at h
    obtain ⟨api, errorCode, rfl, ⟨-, hcall⟩ | ⟨-, hcall⟩ | ⟨-, -, rfl, -⟩⟩ := processClose_cases h
    · exact ⟨closeRules_wf hi.rules m _, closeTcp_all hi.sockets hcall⟩
    · exact ⟨closeRules_wf hi.rules m _, closeUdp_all hi.sockets hcall⟩
    · exact ⟨closeRules_wf hi.rules m _, hi.sockets⟩
  · obtain rfl := Option.some_inj.mp (Option.some_inj.mp h)
    exact hi
  · cases Option.some_inj.mp h

/-- A step by a message: nothing, or a request carried out and put down. -/
theorem step_command_cases (h : step cfg s (.command os m) = some s') :
    (m.isRequest = false ∧ s' = s) ∨
    (m.isRequest = true ∧ carryOut cfg s os m = some none ∧ s' = s) ∨
    (m.isRequest = true ∧ ∃ d, carryOut cfg s os m = some (some d) ∧ s' = settled s m d) := by
  obtain ⟨⟨ret, answer⟩, hprocess, rfl⟩ := Option.map_eq_some_iff.mp h
  rcases process_cases hprocess with ⟨hreq, rfl⟩ | ⟨hreq, hcarry⟩
  · exact Or.inl ⟨hreq, rfl⟩
  · cases answer with
    | none => exact Or.inr (Or.inl ⟨hreq, hcarry, rfl⟩)
    | some d => exact Or.inr (Or.inr ⟨hreq, d, hcarry, rfl⟩)

theorem step_inv {e : Event} (h : step cfg s e = some s') (hi : Inv s) : Inv s' := by
  cases e with
  | command os m =>
    rcases step_command_cases h with ⟨-, rfl⟩ | ⟨-, -, rfl⟩ | ⟨-, d, hcarry, rfl⟩
    · exact hi
    · exact hi
    · have hd := carryOut_inv hi hcarry
      unfold settled
      split
      · exact ⟨hd.rules, acknowledged_all hd.sockets s.api m⟩
      · exact hd
  | handler handler =>
    obtain ⟨api, hrun, rfl⟩ := Option.map_eq_some_iff.mp h
    exact ⟨hi.rules, handle_all tcpSane_lasting acked_lasting accepted_sane hi.sockets hrun⟩

/-! ## The agreement, command by command -/

theorem held_tcp_off {a a' : Api} (hudp : a'.udp = a.udp) (proto : Proto) (h : proto ≠ .tcp) :
    marked (sockets a' proto) = marked (sockets a proto) := by
  cases proto with
  | tcp => exact absurd rfl h
  | udp => simp only [sockets, hudp]

theorem held_udp_off {a a' : Api} (hconnected : a'.tcpConnected = a.tcpConnected)
    (hlistening : a'.tcpListening = a.tcpListening) (proto : Proto) (h : proto ≠ .udp) :
    marked (sockets a' proto) = marked (sockets a proto) := by
  cases proto with
  | tcp => simp only [sockets, hconnected, hlistening]
  | udp => exact absurd rfl h

theorem marked_fresh {x : Socket} {port : UInt16} (h : x.localEndpoint = some port) (ss : List Socket) (q : UInt16) :
    q ∈ marked (ss ++ [acknowledge x]) ↔ q = port ∨ q ∈ marked ss := by
  rw [marked_append, marked_acknowledge, Set.mem_union, Set.mem_ofPred_eq, h, Option.some_inj, or_comm]
  rw [eq_comm]

section
variable {a a' : Api} {t : Set Key} {x : Socket} {port : UInt16}

/-- A connection more. -/
theorem held_connected (hagree : t = held a) (hx : x.localEndpoint = some port) :
    t = held { a with tcpConnected := a.tcpConnected ++ [acknowledge x] } ↔ (.tcp, port) ∈ t := by
  refine keys_add hagree ?_ (held_tcp_off rfl)
  intro q
  show q ∈ marked ((a.tcpConnected ++ [acknowledge x]) ++ a.tcpListening) ↔
    q = port ∨ q ∈ marked (a.tcpConnected ++ a.tcpListening)
  rw [marked_append (a.tcpConnected ++ [acknowledge x]), marked_append a.tcpConnected a.tcpListening, Set.mem_union,
    Set.mem_union, marked_fresh hx, or_assoc]

/-- A UDP socket more. -/
theorem held_udp (hagree : t = held a) (hx : x.localEndpoint = some port) :
    t = held { a with udp := a.udp ++ [acknowledge x] } ↔ (.udp, port) ∈ t :=
  keys_add hagree (marked_fresh hx a.udp) (held_udp_off rfl rfl)

/-- The sockets that are not acknowledged do not count. -/
theorem held_unmarked {ss : List Socket} (hx : x.acknowledged = false) : marked (ss ++ [x]) = marked ss := by
  rw [marked_append, marked_of_not hx, Set.union_empty]

end

theorem settled_success (h : d.message.ack = .success) :
    settled s m d = { d.state with api := acknowledged s.api m d.state.api } := by
  rw [settled, if_pos h]

theorem settled_other (h : acknowledged s.api m d.state.api = d.state.api) : settled s m d = d.state := by
  unfold settled
  rw [h, ite_self]

theorem settled_fail (h : d.message.ack ≠ .success) : settled s m d = d.state := by
  rw [settled, if_neg h]

theorem connect_agrees (hm : m.command = .connect) (h : processConnect s os m = some d)
    (hagree : routes s.rules = held s.api) :
    routes (settled s m d).rules = held (settled s m d).api ↔ CommandKeeps cfg s os m := by
  have hkeeps : CommandKeeps cfg s os m ↔ (m.transport.isTcp = true → s.api.findConnected m.remote m.hostPort = some none →
      connectError os m.hostPort = none → (.tcp, os.bound m.hostPort) ∈ routes s.rules) := by
    unfold CommandKeeps
    rw [hm]
  have hack : ∀ a, acknowledged s.api m a =
      { a with tcpConnected := acknowledgeNew s.api.tcpConnected.length a.tcpConnected } := by
    intro a
    simp only [acknowledged, hm]
  have hsame : acknowledged s.api m s.api = s.api := by rw [hack, acknowledgeNew_self]
  rw [hkeeps]
  rcases processConnect_cases h with ⟨htcp, api, hostPort, err, hcall, rfl⟩ | ⟨htcp, rfl⟩
  · rcases connect_cases hcall with ⟨it, hfind, rfl, -⟩ | ⟨e, hfind, herr, rfl, -⟩ | ⟨hfind, herr, rfl, rfl⟩
    · rw [settled_other hsame, hfind]
      exact iff_of_true hagree nofun
    · rw [settled_other hsame, herr]
      exact iff_of_true hagree nofun
    · rw [settled_success rfl, hack, acknowledgeNew_append]
      simp only [htcp, hfind, herr, forall_const]
      exact held_connected hagree rfl
  · rw [settled_other hsame, htcp]
    exact iff_of_true hagree nofun

/-- What holds of every socket found holds of the one that is. -/
theorem forall_found_iff {found : Option (Option Nat)} {ss : List Socket} {it : Nat} {x : Socket}
    {P : Nat → Socket → Prop} (hfind : found = some (some it)) (hget : ss[it]? = some x) :
    (∀ it x, found = some (some it) → ss[it]? = some x → P it x) ↔ P it x := by
  constructor
  · intro h
    exact h it x hfind hget
  · intro h it' x' hfind' hget'
    obtain rfl := Option.some_inj.mp (Option.some_inj.mp (hfind.symm.trans hfind'))
    obtain rfl := Option.some_inj.mp (hget.symm.trans hget')
    exact h

/-- Taking a connection away. -/
theorem disconnect_held {a a' : Api} {t : Set Key} {remote : Endpoint} {port : UInt16} {aErr : Option Error}
    (hagree : t = held a) (h : a.disconnect os remote port = some (a', aErr)) :
    t = held a' ↔ DisconnectKeeps a remote port := by
  unfold DisconnectKeeps
  rcases disconnect_cases h with ⟨hfind, rfl, -⟩ | ⟨it, hfind, -, rfl⟩
  · rw [hfind]
    exact iff_of_true hagree nofun
  · obtain ⟨x, hget, -⟩ := findIf_getElem hfind
    have hrest : marked (a.tcpConnected ++ a.tcpListening) =
        marked (a.tcpConnected.eraseIdx it ++ a.tcpListening) ∪ marked [x] := by
      rw [marked_append, marked_append, marked_eraseIdx hget, Set.union_right_comm]
    have hdrop : t = held { a with tcpConnected := a.tcpConnected.eraseIdx it } ↔
        marked [x] ⊆ marked (a.tcpConnected.eraseIdx it ++ a.tcpListening) :=
      keys_drop (i := Proto.tcp) hagree hrest (held_tcp_off rfl)
    rw [hdrop]
    exact (forall_found_iff (P := fun it x => Shared (a.tcpConnected.eraseIdx it ++ a.tcpListening) x)
      hfind hget).symm

theorem disconnect_agrees (hm : m.command = .disconnect) (h : processDisconnect s os m = some d)
    (hagree : routes s.rules = held s.api) :
    routes (settled s m d).rules = held (settled s m d).api ↔ CommandKeeps cfg s os m := by
  have hkeeps : CommandKeeps cfg s os m ↔ DisconnectKeeps s.api m.remote m.hostPort := by
    unfold CommandKeeps
    rw [hm]
  obtain ⟨api, err, hcall, rfl⟩ := processDisconnect_cases h
  rw [hkeeps, settled_other (by simp only [acknowledged, hm])]
  exact disconnect_held hagree hcall

theorem sendFrom_unmarked (os : Os) (port : UInt16) : (sendFrom (created os port) os).acknowledged = false := by
  unfold sendFrom
  split <;> rfl

theorem send_agrees (hm : m.command = .send) (h : processSend s os m = some d) (hagree : routes s.rules = held s.api) :
    routes (settled s m d).rules = held (settled s m d).api ↔ CommandKeeps cfg s os m := by
  have hkeeps : CommandKeeps cfg s os m ↔ (m.transport.isUdp = true → s.api.findSender m.hostPort = some none →
      os.open_ = none → os.send = none → (.udp, sentFrom os m.hostPort) ∈ routes s.rules) := by
    unfold CommandKeeps
    rw [hm]
  have hack : ∀ a, acknowledged s.api m a = { a with udp := acknowledgeNew s.api.udp.length a.udp } := by
    intro a
    simp only [acknowledged, hm]
  have hsame : acknowledged s.api m s.api = s.api := by rw [hack, acknowledgeNew_self]
  rw [hkeeps]
  obtain ⟨api, sent, rfl, ⟨htcp, rfl, -⟩ | ⟨hudp, hcall⟩ | ⟨-, hudp, rfl, -⟩⟩ := processSend_cases h
  · have hudp : m.transport.isUdp = false := by
      cases ht : m.transport <;> rw [ht] at htcp <;> first | rfl | cases htcp
    rw [settled_other hsame, hudp]
    exact iff_of_true hagree nofun
  · rcases sendToUdp_cases hcall with ⟨it, hfind, rfl, -⟩ | ⟨hfind, rfl, hsent⟩
    · rw [settled_other hsame, hfind]
      exact iff_of_true hagree nofun
    · simp only [hudp, hfind, forall_const]
      cases herr : sendError (created os m.hostPort) os with
      | none =>
        have hopen : os.open_ = none ∧ os.send = none := sendError_none.mp herr
        rw [settled_success (by rw [hsent, herr]; rfl), hack, acknowledgeNew_append]
        simp only [hopen.1, hopen.2, forall_const]
        exact held_udp hagree (sendFrom_localEndpoint hopen.1 hopen.2)
      | some e =>
        rw [settled_fail (by rw [hsent, herr]; nofun)]
        refine iff_of_true ?_ ?_
        · rw [hagree]
          refine (keys_congr ?_).symm
          intro proto
          cases proto with
          | tcp => rfl
          | udp => exact held_unmarked (sendFrom_unmarked os m.hostPort)
        · intro hopen hsend
          rw [sendError_none.mpr ⟨hopen, hsend⟩] at herr
          cases herr
  · rw [settled_other hsame, hudp]
    exact iff_of_true hagree nofun

/-! ## Opening and closing a port -/

section
variable {ss : List Socket} {port q : UInt16}

theorem not_marked_of_findPort (h : findPort port ss = some none) : port ∉ marked ss := by
  intro h
  rcases h with ⟨x, hx, -, hport⟩
  exact findPort_none h x hx hport

/-- A port found open. -/
theorem marked_found {it : Nat} (h : findPort port ss = some (some it)) :
    q ∈ marked (acknowledgePort port ss) ↔ q = port ∨ q ∈ marked ss := by
  obtain ⟨x, hget, hport⟩ := findPort_some h
  rw [marked_acknowledgePort, Set.mem_union, Set.mem_ofPred_eq, or_comm]
  constructor
  · intro h
    rcases h with ⟨rfl, -⟩ | hq
    · exact Or.inl rfl
    · exact Or.inr hq
  · intro h
    rcases h with rfl | hq
    · exact Or.inl ⟨rfl, x, List.mem_of_getElem? hget, hport⟩
    · exact Or.inr hq

/-- A port opened under its number. -/
theorem marked_opened (os : Os) (hport : port ≠ 0) (ss : List Socket) :
    q ∈ marked (acknowledgePort port (ss ++ [acknowledge (opened os port none)])) ↔ q = port ∨ q ∈ marked ss := by
  have hlocal : (opened os port none).localEndpoint = some port := by
    show some (os.bound port) = some port
    rw [Os.bound, if_neg hport]
  rw [marked_acknowledgePort, Set.mem_union, marked_fresh hlocal, Set.mem_ofPred_eq]
  constructor
  · intro h
    rcases h with hq | ⟨rfl, -⟩
    · exact hq
    · exact Or.inl rfl
  · exact Or.inl

/-- A port opened under no number: the rule is for port 0, and no socket is on it. -/
theorem marked_opened_any (os : Os) (h : findPort 0 ss = some none) :
    0 ∉ marked (acknowledgePort 0 (ss ++ [acknowledge (opened os 0 none)])) := by
  have hne : ∀ x ∈ ss ++ [acknowledge (opened os 0 none)], x.localEndpoint ≠ some 0 := by
    intro x hx
    rcases List.mem_append.mp hx with hx | hx
    · exact findPort_none h x hx
    · rw [List.mem_singleton.mp hx]
      intro heq
      exact os.bound_ne_zero 0 (Option.some_inj.mp heq)
  rw [marked_acknowledgePort]
  intro h
  rcases h with ⟨x, hx, -, hport⟩ | ⟨-, x, hx, hport⟩
  · exact hne x hx hport
  · exact hne x hx hport

theorem marked_closed (ss : List Socket) : marked (ss ++ [Socket.closed]) = marked ss := held_unmarked rfl

/-- No connection and no acceptor of the autopilot's is on port 0. -/
theorem zero_not_marked (h : ∀ x ∈ ss, TcpSane x) : 0 ∉ marked ss := by
  intro h
  rcases h with ⟨x, hx, -, hport⟩
  have hopen := localEndpoint_isOpen hport
  rw [Socket.localEndpoint, if_pos hopen] at hport
  exact (h x hx).port (Or.inl hopen) (Option.some_inj.mp hport)

end

theorem openRules_routes (h : WfRules s.rules) (m : Message) : routes (openRules s m .success) =
    insert (if m.transport.isTcp then .tcp else .udp, m.hostPort) (routes s.rules) := by
  rw [openRules, if_pos rfl, origin_eq]
  exact (addStatic_routes h _).2

theorem closeRules_routes (h : WfRules s.rules) (m : Message) : routes (closeRules s m .success) =
    routes s.rules \ {(if m.transport.isTcp then .tcp else .udp, m.hostPort)} := by
  rw [closeRules, if_pos rfl, origin_eq]
  exact (remove_routes h _).2

/-- What opening a TCP port does to the agreement. -/
theorem openTcp_agrees {api : Api} {errorCode : Option Error} (hi : Inv s) (hm : m.command = .open_)
    (htcp : m.transport.isTcp = true) (hcall : s.api.openTcp os m.hostPort = some (api, errorCode))
    (hagree : routes s.rules = held s.api)
    (hd : d = { state := ⟨api, openRules s m (openAck errorCode)⟩, message := { m with ack := openAck errorCode } }) :
    routes (settled s m d).rules = held (settled s m d).api ↔
      (findPort m.hostPort s.api.tcpListening = some none → openTcpError os = none → m.hostPort ≠ 0) := by
  have hack : ∀ a, acknowledged s.api m a = { a with
      tcpListening := acknowledgePort m.hostPort (acknowledgeNew s.api.tcpListening.length a.tcpListening) } := by
    intro a
    unfold acknowledged
    rw [hm]
    cases ht : m.transport <;> rw [ht] at htcp <;> first | rfl | cases htcp
  have hroutes : routes (openRules s m .success) = insert (.tcp, m.hostPort) (routes s.rules) := by
    rw [openRules_routes hi.rules, if_pos htcp]
  subst hd
  rcases openTcp_cases hcall with ⟨it, hfind, rfl, rfl⟩ | ⟨hfind, rfl, rfl⟩
  · rw [hfind, settled_success rfl, hack, acknowledgeNew_self]
    refine iff_of_true (keys_add_both (i := Proto.tcp) hagree hroutes ?_ (held_tcp_off rfl)) nofun
    intro q
    simp only [sockets, marked_append, Set.mem_union, marked_found hfind]
    exact or_left_comm
  · cases herr : openTcpError os with
    | some e =>
      rw [settled_fail (by simp)]
      refine iff_of_true (hagree.trans (keys_congr ?_).symm) nofun
      intro proto
      cases proto with
      | tcp =>
        show marked (s.api.tcpConnected ++ (s.api.tcpListening ++ [Socket.closed])) = _
        rw [marked_append, marked_closed, ← marked_append]
        rfl
      | udp => rfl
    | none =>
      rw [hfind, settled_success rfl, hack, acknowledgeNew_append]
      simp only [forall_const]
      by_cases hport : m.hostPort = 0
      · refine iff_of_false ?_ (fun h => h hport)
        intro heq
        have hmem : (Proto.tcp, m.hostPort) ∈ routes (openRules s m .success) := by
          rw [hroutes]
          exact Set.mem_insert _ _
        have heq : routes (openRules s m .success) = held _ := heq
        rw [heq, held, mem_keys, sockets, marked_append, hport] at hmem
        rcases hmem with hmem | hmem
        · exact zero_not_marked hi.sockets.tcpConnected hmem
        · rw [hport] at hfind
          exact marked_opened_any os hfind hmem
      · refine iff_of_true (keys_add_both (i := Proto.tcp) hagree hroutes ?_ (held_tcp_off rfl)) hport
        intro q
        simp only [sockets, marked_append, Set.mem_union, marked_opened os hport]
        exact or_left_comm

theorem openUdp_agrees {api : Api} {errorCode : Option Error} (hi : Inv s) (hm : m.command = .open_)
    (hudp : m.transport.isUdp = true) (hcall : s.api.openUdp os m.hostPort = some (api, errorCode))
    (hagree : routes s.rules = held s.api)
    (hd : d = { state := ⟨api, openRules s m (openAck errorCode)⟩, message := { m with ack := openAck errorCode } }) :
    routes (settled s m d).rules = held (settled s m d).api ↔
      (findPort m.hostPort s.api.udp = some none → openUdpError os = none → m.hostPort ≠ 0) := by
  have hack : ∀ a, acknowledged s.api m a = { a with
      udp := acknowledgePort m.hostPort (acknowledgeNew s.api.udp.length a.udp) } := by
    intro a
    unfold acknowledged
    rw [hm]
    cases ht : m.transport <;> rw [ht] at hudp <;> first | rfl | cases hudp
  have hroutes : routes (openRules s m .success) = insert (.udp, m.hostPort) (routes s.rules) := by
    have htcp : m.transport.isTcp = false := by
      cases ht : m.transport <;> rw [ht] at hudp <;> first | rfl | cases hudp
    rw [openRules_routes hi.rules, htcp]
    rfl
  subst hd
  rcases openUdp_cases hcall with ⟨it, hfind, rfl, rfl⟩ | ⟨hfind, rfl, rfl⟩
  · rw [hfind, settled_success rfl, hack, acknowledgeNew_self]
    exact iff_of_true (keys_add_both (i := Proto.udp) hagree hroutes (fun q => marked_found hfind)
      (held_udp_off rfl rfl)) nofun
  · cases herr : openUdpError os with
    | some e =>
      rw [settled_fail (by simp)]
      refine iff_of_true (hagree.trans (keys_congr ?_).symm) nofun
      intro proto
      cases proto with
      | tcp => rfl
      | udp => exact marked_closed s.api.udp
    | none =>
      rw [hfind, settled_success rfl, hack, acknowledgeNew_append]
      simp only [forall_const]
      by_cases hport : m.hostPort = 0
      · refine iff_of_false ?_ (fun h => h hport)
        intro heq
        have hmem : (Proto.udp, m.hostPort) ∈ routes (openRules s m .success) := by
          rw [hroutes]
          exact Set.mem_insert _ _
        have heq : routes (openRules s m .success) = held _ := heq
        rw [heq, held, mem_keys, sockets, hport] at hmem
        rw [hport] at hfind
        exact marked_opened_any os hfind hmem
      · exact iff_of_true (keys_add_both (i := Proto.udp) hagree hroutes (fun q => marked_opened os hport s.api.udp)
          (held_udp_off rfl rfl)) hport

theorem open_agrees (hi : Inv s) (hm : m.command = .open_) (h : processOpen s os m = some d)
    (hagree : routes s.rules = held s.api) :
    routes (settled s m d).rules = held (settled s m d).api ↔ CommandKeeps cfg s os m := by
  obtain ⟨api, errorCode, hd, hcases⟩ := processOpen_cases h
  unfold CommandKeeps
  rw [hm]
  rcases hcases with ⟨htcp, hcall⟩ | ⟨hudp, hcall⟩ | ⟨htcp, hudp, rfl, rfl⟩
  · have hopen := openTcp_agrees hi hm htcp hcall hagree hd
    cases ht : m.transport <;> rw [ht] at htcp <;> first | exact hopen | cases htcp
  · have hopen := openUdp_agrees hi hm hudp hcall hagree hd
    cases ht : m.transport <;> rw [ht] at hudp <;> first | exact hopen | cases hudp
  · subst hd
    have hroutes := openRules_routes hi.rules m
    have hack : acknowledged s.api m s.api = s.api := by
      unfold acknowledged
      rw [hm]
      cases ht : m.transport <;> rw [ht] at htcp hudp <;> first | rfl | (cases htcp; done) | cases hudp
    rw [settled_other hack]
    rw [htcp] at hroutes
    have hinsert : routes (openRules s m .success) = held s.api ↔ (.udp, m.hostPort) ∈ routes s.rules := by
      rw [hroutes, ← hagree]
      exact Set.insert_eq_self
    cases ht : m.transport <;> rw [ht] at htcp hudp <;> first | exact hinsert | (cases htcp; done) | cases hudp

/-- A port is closed: its rule goes with it, or stays where closing it has failed. -/
theorem closed_agrees {a' : Api} {proto : Proto} {port : UInt16} {rest : List Socket} {closed : Bool} {dropped : Set UInt16}
    {rules : RoutingRules} (hagree : routes s.rules = held s.api)
    (hroutes : routes rules = if closed then routes s.rules \ {(proto, port)} else routes s.rules)
    (hrest : sockets a' proto = rest) (hdropped : dropped ⊆ {port})
    (hsplit : marked (sockets s.api proto) = marked rest ∪ dropped)
    (hoff : ∀ p, p ≠ proto → marked (sockets a' p) = marked (sockets s.api p)) :
    routes rules = held a' ↔ CloseKeeps s (proto, port) closed rest := by
  subst hrest
  unfold CloseKeeps
  cases closed with
  | true => exact keys_drop_both hagree hroutes hdropped hsplit hoff
  | false =>
    rw [if_neg Bool.false_ne_true] at hroutes
    rw [hroutes]
    refine (keys_drop hagree hsplit hoff).trans ?_
    rw [hagree]
    show _ ↔ (port ∈ marked (sockets s.api proto) → port ∈ marked (sockets a' proto))
    rw [hsplit]
    constructor
    · intro hsub h
      rcases h with hmem | hmem
      · exact hmem
      · exact hsub hmem
    · intro himp q hq
      obtain rfl : q = port := hdropped hq
      exact himp (Or.inr hq)

/-- The socket of the port, and the others. -/
theorem marked_port {ss : List Socket} {it : Nat} {port : UInt16} (h : findPort port ss = some (some it)) :
    ∃ dropped ⊆ ({port} : Set UInt16), marked ss = marked (ss.eraseIdx it) ∪ dropped := by
  obtain ⟨x, hget, hport⟩ := findPort_some h
  refine ⟨marked [x], ?_, marked_eraseIdx hget⟩
  intro q h
  rcases h with ⟨y, hy, -, hq⟩
  rw [List.mem_singleton.mp hy, hport] at hq
  exact (Option.some_inj.mp hq).symm

/-- The clients of the port, and the other connections. -/
theorem marked_remaining (cfg : Bool) (a : Api) (port : UInt16) :
    ∃ dropped ⊆ ({port} : Set UInt16), marked a.tcpConnected = marked (remaining cfg a port) ∪ dropped := by
  cases cfg with
  | false => exact ⟨∅, Set.empty_subset _, (Set.union_empty _).symm⟩
  | true =>
    refine ⟨marked (a.tcpConnected.filter (isClient port)), ?_, ?_⟩
    · intro q h
      rcases h with ⟨y, hy, -, hq⟩
      have hclient := (List.mem_filter.mp hy).2
      rw [isClient, hq, beq_iff_eq, Option.some_inj] at hclient
      exact hclient
    · ext q
      simp only [marked, remaining, if_true, Set.mem_union, Set.mem_ofPred_eq, List.mem_filter, Bool.not_eq_true']
      constructor
      · intro h
        rcases h with ⟨y, hy, hmark⟩
        cases hc : isClient port y with
        | false => exact Or.inl ⟨y, ⟨hy, hc⟩, hmark⟩
        | true => exact Or.inr ⟨y, ⟨hy, hc⟩, hmark⟩
      · intro h
        rcases h with ⟨y, ⟨hy, -⟩, hmark⟩ | ⟨y, ⟨hy, -⟩, hmark⟩
        · exact ⟨y, hy, hmark⟩
        · exact ⟨y, hy, hmark⟩

theorem closeTcp_agrees {api : Api} {errorCode : Option Error} (hi : Inv s) (hm : m.command = .close)
    (htcp : m.transport.isTcp = true) (hcall : s.api.closeTcp cfg os m.hostPort = some (api, errorCode))
    (hagree : routes s.rules = held s.api)
    (hd : d = { state := ⟨api, closeRules s m (closeAck errorCode)⟩, message := { m with ack := closeAck errorCode } }) :
    let clients := remaining cfg s.api m.hostPort
    routes (settled s m d).rules = held (settled s m d).api ↔
      (findPort m.hostPort s.api.tcpListening = some none → m.hostPort ∉ marked clients) ∧
      ∀ it, findPort m.hostPort s.api.tcpListening = some (some it) →
        CloseKeeps s (.tcp, m.hostPort) os.close.isNone (clients ++ s.api.tcpListening.eraseIdx it) := by
  intro clients
  have hroutes : routes (closeRules s m .success) = routes s.rules \ {(.tcp, m.hostPort)} := by
    rw [closeRules_routes hi.rules, if_pos htcp]
  obtain ⟨gone, hgone, hclients⟩ := marked_remaining cfg s.api m.hostPort
  subst hd
  rw [settled_other (by simp only [acknowledged, hm])]
  rcases closeTcp_cases hcall with ⟨hfind, rfl, rfl⟩ | ⟨it, hfind, rfl, rfl⟩
  · have hnone := not_marked_of_findPort hfind
    have hclose : routes (closeRules s m .success) = held { s.api with tcpConnected := clients } ↔
        CloseKeeps s (.tcp, m.hostPort) true (clients ++ s.api.tcpListening) :=
      closed_agrees hagree hroutes rfl hgone
        (by rw [sockets, marked_append, marked_append, hclients, Set.union_right_comm]) (held_tcp_off rfl)
    rw [hfind]
    refine hclose.trans ?_
    rw [CloseKeeps, if_pos rfl, marked_append, Set.mem_union]
    simp [hnone]
  · obtain ⟨dropped, hdropped, hlistening⟩ := marked_port hfind
    have hclose : routes (closeRules s m (closeAck (os.close.map .system))) =
        held { s.api with tcpConnected := clients, tcpListening := s.api.tcpListening.eraseIdx it } ↔
        CloseKeeps s (.tcp, m.hostPort) os.close.isNone (clients ++ s.api.tcpListening.eraseIdx it) := by
      refine closed_agrees hagree ?_ rfl (Set.union_subset hgone hdropped) ?_ (held_tcp_off rfl)
      · cases os.close with
        | none => exact hroutes
        | some e => rfl
      · rw [sockets, marked_append, marked_append, hclients, hlistening, Set.union_union_union_comm]
    rw [hfind]
    refine hclose.trans ?_
    simp

theorem closeUdp_agrees {api : Api} {errorCode : Option Error} (hi : Inv s) (hm : m.command = .close)
    (hudp : m.transport.isUdp = true) (hcall : s.api.closeUdp os m.hostPort = some (api, errorCode))
    (hagree : routes s.rules = held s.api)
    (hd : d = { state := ⟨api, closeRules s m (closeAck errorCode)⟩, message := { m with ack := closeAck errorCode } }) :
    routes (settled s m d).rules = held (settled s m d).api ↔
      ∀ it, findPort m.hostPort s.api.udp = some (some it) →
        CloseKeeps s (.udp, m.hostPort) os.close.isNone (s.api.udp.eraseIdx it) := by
  have hroutes : routes (closeRules s m .success) = routes s.rules \ {(.udp, m.hostPort)} := by
    have htcp : m.transport.isTcp = false := by
      cases ht : m.transport <;> rw [ht] at hudp <;> first | rfl | cases hudp
    rw [closeRules_routes hi.rules, htcp]
    rfl
  subst hd
  rw [settled_other (by simp only [acknowledged, hm])]
  rcases closeUdp_cases hcall with ⟨hfind, rfl, rfl⟩ | ⟨it, hfind, rfl, rfl⟩
  · rw [hfind]
    refine iff_of_true ?_ nofun
    show routes (closeRules s m .success) = held s.api
    rw [hroutes, ← hagree, Set.sdiff_singleton_eq_self]
    rw [hagree]
    exact not_marked_of_findPort hfind
  · obtain ⟨dropped, hdropped, hsplit⟩ := marked_port hfind
    have hclose : routes (closeRules s m (closeAck (os.close.map .system))) =
        held { s.api with udp := s.api.udp.eraseIdx it } ↔
        CloseKeeps s (.udp, m.hostPort) os.close.isNone (s.api.udp.eraseIdx it) := by
      refine closed_agrees hagree ?_ rfl hdropped hsplit (held_udp_off rfl rfl)
      cases os.close with
      | none => exact hroutes
      | some e => rfl
    rw [hfind]
    refine hclose.trans ?_
    simp

theorem close_agrees (hi : Inv s) (hm : m.command = .close) (h : processClose cfg s os m = some d)
    (hagree : routes s.rules = held s.api) :
    routes (settled s m d).rules = held (settled s m d).api ↔ CommandKeeps cfg s os m := by
  obtain ⟨api, errorCode, hd, hcases⟩ := processClose_cases h
  unfold CommandKeeps
  rw [hm]
  rcases hcases with ⟨htcp, hcall⟩ | ⟨hudp, hcall⟩ | ⟨htcp, hudp, rfl, rfl⟩
  · have hclose := closeTcp_agrees hi hm htcp hcall hagree hd
    cases ht : m.transport <;> rw [ht] at htcp <;> first | exact hclose | cases htcp
  · have hclose := closeUdp_agrees hi hm hudp hcall hagree hd
    cases ht : m.transport <;> rw [ht] at hudp <;> first | exact hclose | cases hudp
  · subst hd
    have hroutes := closeRules_routes hi.rules m
    rw [settled_other (by simp only [acknowledged, hm])]
    rw [htcp] at hroutes
    have hremove : routes (closeRules s m .success) = held s.api ↔ (.udp, m.hostPort) ∉ routes s.rules := by
      rw [hroutes, ← hagree]
      constructor
      · intro h hk
        rw [← h] at hk
        exact hk.2 rfl
      · exact Set.sdiff_singleton_eq_self
    cases ht : m.transport <;> rw [ht] at htcp hudp <;>
      first | exact hremove | (cases htcp; done) | cases hudp

/-! ## The handlers -/

theorem held_settle_udp (a : Api) (it : Nat) : held { a with udp := settle it a.udp } = held a := by
  refine keys_congr ?_
  intro proto
  cases proto with
  | tcp => rfl
  | udp => exact marked_settle it a.udp

theorem held_settle_connected (a : Api) (it : Nat) :
    held { a with tcpConnected := settle it a.tcpConnected } = held a := by
  refine keys_congr ?_
  intro proto
  cases proto with
  | tcp => simp only [sockets, marked_append, marked_settle]
  | udp => rfl

/-- Taking a UDP socket away. -/
theorem closeUdp_held {a a' : Api} {t : Set Key} {port : UInt16} {aErr : Option Error} (hagree : t = held a)
    (h : a.closeUdp os port = some (a', aErr)) : t = held a' ↔ CloseUdpKeeps a port := by
  unfold CloseUdpKeeps
  rcases closeUdp_cases h with ⟨hfind, rfl, -⟩ | ⟨it, hfind, -, rfl⟩
  · rw [hfind]
    exact iff_of_true hagree nofun
  · obtain ⟨x, hget, -⟩ := findPort_some hfind
    have hdrop : t = held { a with udp := a.udp.eraseIdx it } ↔ marked [x] ⊆ marked (a.udp.eraseIdx it) :=
      keys_drop (i := Proto.udp) hagree (marked_eraseIdx hget) (held_udp_off rfl rfl)
    rw [hdrop]
    exact (forall_found_iff (P := fun it x => Shared (a.udp.eraseIdx it) x) hfind hget).symm

/-- An accepted connection shares the port of its acceptor. -/
theorem accept_held {a : Api} {acceptor : Socket} {it : Nat} (hacked : Acked acceptor)
    (hget : a.tcpListening[it]? = some acceptor) (peer : Option Endpoint) :
    held { a with tcpConnected := a.tcpConnected ++ [accepted acceptor peer] } = held a := by
  refine keys_congr ?_
  intro proto
  cases proto with
  | tcp =>
    have hsub : marked [accepted acceptor peer] ⊆ marked a.tcpListening := by
      intro q h
      rcases h with ⟨x, hx, hack, hport⟩
      rw [List.mem_singleton.mp hx] at hack hport
      refine ⟨acceptor, List.mem_of_getElem? hget, hack, ?_⟩
      rw [Socket.localEndpoint, if_pos (hacked hack)]
      exact hport
    simp only [sockets, marked_append]
    rw [Set.union_assoc, Set.union_eq_right.mpr hsub]
  | udp => rfl

theorem handler_agrees {handler : Handler} (hi : Inv s) (h : step cfg s (.handler handler) = some s')
    (hagree : routes s.rules = held s.api) :
    routes s'.rules = held s'.api ↔ Keeps cfg s (.handler handler) := by
  obtain ⟨api, hrun, rfl⟩ := Option.map_eq_some_iff.mp h
  cases handler with
  | accept it peer =>
    refine iff_of_true ?_ trivial
    rcases onAccept_cases hrun with rfl | ⟨acceptor, hget, -, rfl⟩
    · exact hagree
    · have hacked := (hi.sockets.tcpListening acceptor (List.mem_of_getElem? hget)).acked
      exact hagree.trans (accept_held hacked hget peer).symm
  | acceptError it aError =>
    refine iff_of_true ?_ trivial
    rcases onAcceptError_cases hrun with rfl | ⟨mutex, rfl⟩
    · exact hagree
    · refine hagree.trans (keys_congr ?_).symm
      intro proto
      cases proto with
      | tcp => simp only [sockets, marked_append, marked_settle]
      | udp => rfl
  | udpReceiveError os it aError =>
    have hsettled : routes s.rules = held { s.api with udp := settle it s.api.udp } := by
      rw [held_settle_udp]
      exact hagree
    rcases onUdpReceiveError_cases hrun with ⟨rfl, hidle⟩ | ⟨rfl, rfl⟩ | ⟨x, port, aErr, hget, hpending, hne, hport, hclose⟩
    · refine iff_of_true hagree ?_
      intro x port hget hpending
      rw [hidle x hget] at hpending
      cases hpending
    · refine iff_of_true hsettled ?_
      intro x port hget hpending hne
      exact absurd rfl hne
    · refine (closeUdp_held hsettled hclose).trans ?_
      constructor
      · intro hkeeps x' port' hget' _ _ hport'
        obtain rfl := Option.some_inj.mp (hget.symm.trans hget')
        obtain rfl := Option.some_inj.mp (hport.symm.trans hport')
        exact hkeeps
      · intro hkeeps
        exact hkeeps x port hget hpending hne hport
  | tcpReceiveError os it aErr =>
    have hsettled : routes s.rules = held { s.api with tcpConnected := settle it s.api.tcpConnected } := by
      rw [held_settle_connected]
      exact hagree
    rcases onTcpReceiveError_cases hrun with ⟨hsame, hnot⟩ | ⟨x, remote, port, aErr', hended, hdis⟩
    · refine iff_of_true ?_ ?_
      · rcases hsame with rfl | rfl
        · exact hagree
        · exact hsettled
      · intro x remote port hended
        exact absurd hended (hnot x remote port)
    · refine (disconnect_held hsettled hdis).trans ?_
      constructor
      · intro hkeeps x' remote' port' hended'
        obtain rfl := Option.some_inj.mp (hended.1.symm.trans hended'.1)
        obtain rfl := Option.some_inj.mp (hended.2.2.2.1.symm.trans hended'.2.2.2.1)
        obtain rfl := Option.some_inj.mp (hended.2.2.2.2.symm.trans hended'.2.2.2.2)
        exact hkeeps
      · intro hkeeps
        exact hkeeps x remote port hended
  | peerLost it =>
    obtain rfl := Option.some_inj.mp hrun
    refine iff_of_true (hagree.trans (keys_congr ?_).symm) trivial
    intro proto
    cases proto with
    | tcp =>
      have hlost := marked_modify (f := fun x => { x with remote := none }) (fun _ => rfl) (fun _ => rfl) s.api.tcpConnected it
      simp only [sockets, onPeerLost, marked_append, hlost]
    | udp => rfl

/-! ## Every run -/

theorem step_agrees {e : Event} (hi : Inv s) (h : step cfg s e = some s') (hagree : routes s.rules = held s.api) :
    routes s'.rules = held s'.api ↔ Keeps cfg s e := by
  cases e with
  | handler handler => exact handler_agrees hi h hagree
  | command os m =>
    rcases step_command_cases h with ⟨hreq, rfl⟩ | ⟨hreq, hcarry, rfl⟩ | ⟨hreq, d, hcarry, rfl⟩
    · refine iff_of_true hagree ?_
      intro hreq'
      rw [hreq] at hreq'
      cases hreq'
    · refine iff_of_true hagree ?_
      intro _
      unfold carryOut at hcarry
      unfold CommandKeeps
      cases hm : m.command <;> rw [hm] at hcarry <;> simp at hcarry
      trivial
    · have hkeeps : Keeps cfg s (.command os m) ↔ CommandKeeps cfg s os m := imp_iff_right hreq
      rw [hkeeps]
      unfold carryOut at hcarry
      cases hm : m.command <;> rw [hm] at hcarry <;>
        simp only [Option.map_eq_some_iff, Option.some_inj, exists_eq_right] at hcarry
      · exact connect_agrees hm hcarry hagree
      · exact disconnect_agrees hm hcarry hagree
      · exact send_agrees hm hcarry hagree
      · exact open_agrees hi hm hcarry hagree
      · exact close_agrees hi hm hcarry hagree
      · subst hcarry
        rw [settled_other (by simp only [acknowledged, hm])]
        refine iff_of_true hagree ?_
        unfold CommandKeeps
        rw [hm]
        trivial
      · cases hcarry

end

/-- The module behind its start: what `apiInit` has opened, and the rules of the bridge. `apiInit`
    searches an empty list, and returns. -/
def start (os : Os) (uartMavlinkProcess udpMavlinkProcess : Bool) : State :=
  ⟨(apiInit os {}).getD {}, Bdg.MavlinkRouting.init uartMavlinkProcess udpMavlinkProcess⟩

theorem start_api (os : Os) (u v : Bool) : (start os u v).api = { udp := [opened os 8001 (openUdpError os)] } := rfl

theorem static_not_packed (u v : Bool) :
    ∀ t ∈ Bdg.MavlinkRouting.kStaticRoutingRules u v, t.2.1 ≠ .named .mavlinkIpPack := by
  cases u <;> cases v <;> decide

theorem start_not_packed (os : Os) (u v : Bool) (o x : EndpointVariant) :
    (o, .named .mavlinkIpPack, x) ∉ (start os u v).rules.rulesOf := by
  intro hmem
  exact static_not_packed u v _ (Bdg.MavlinkRouting.init_subset u v hmem) rfl

theorem start_inv (os : Os) (u v : Bool) : Inv (start os u v) := by
  refine ⟨⟨Bdg.MavlinkRouting.init_sorted u v, ?_, ?_⟩, ?_⟩
  · intro o x hmem
    exact absurd hmem (start_not_packed os u v o x)
  · intro o x hmem
    exact absurd hmem (start_not_packed os u v o x)
  · rw [start_api]
    refine ⟨nofun, nofun, ?_⟩
    intro x hx
    rw [List.mem_singleton.mp hx]
    exact (opened_sane os 8001 _).acked

theorem opened_unmarked (os : Os) (port : UInt16) (e : Option SysError) : (opened os port e).acknowledged = false := by
  cases e <;> rfl

theorem start_agrees (os : Os) (u v : Bool) : routes (start os u v).rules = held (start os u v).api := by
  ext ⟨proto, port⟩
  refine iff_of_false ?_ ?_
  · intro h
    rcases h with ⟨x, hmem⟩
    exact start_not_packed os u v _ x hmem
  · rw [start_api]
    cases proto with
    | tcp =>
      intro h
      rcases h with ⟨x, hx, -⟩
      cases hx
    | udp =>
      show port ∉ marked [_]
      rw [marked_of_not (opened_unmarked os 8001 _)]
      exact Set.notMem_empty port

/-- **Return routes.** Throughout a run from the start of the module every acknowledged socket
    has its return route and no other port has one, exactly when every step of the run keeps
    to what `Keeps` says. -/
theorem routed_iff_along (closeCliDisconnect : Bool) (os : Os) (uartMavlinkProcess udpMavlinkProcess : Bool)
    (es : List Event) :
    PartialRun.Always (step closeCliDisconnect) Routed (start os uartMavlinkProcess udpMavlinkProcess) es ↔
      PartialRun.Along (step closeCliDisconnect) (fun s e _ => Keeps closeCliDisconnect s e)
        (start os uartMavlinkProcess udpMavlinkProcess) es := by
  have hi := start_inv os uartMavlinkProcess udpMavlinkProcess
  refine PartialRun.always_iff_along (I := Inv) ?_ ?_ hi
    ((routed_iff hi.rules).mpr (start_agrees os uartMavlinkProcess udpMavlinkProcess))
  · intro s e s' hstep hi _ _
    exact step_inv hstep hi
  · intro s e s' hstep hi hrouted
    rw [routed_iff (step_inv hstep hi).rules]
    exact step_agrees hi hstep ((routed_iff hi.rules).mp hrouted)

/-- A connection from port 5000 is acknowledged, and what it receives reaches nobody. -/
theorem a_connection_on_a_port_nobody_opened_has_no_route :
    let connect : Message := { hostPort := 5000, remotePort := 80, command := .connect, transport := .tcp4,
                               payloadLen := 4, payload := [10, 0, 0, 1] }
    ∃ s, step true (start {} true true) (.command {} connect) = some s ∧ (.tcp, 5000) ∈ held s.api ∧ ¬ Routed s := by
  intro connect
  refine ⟨⟨{ (start {} true true).api with tcpConnected := [acknowledge (connected {} connect.remote 5000)] },
    (start {} true true).rules⟩, rfl, ⟨_, List.mem_cons_self, rfl, rfl⟩, ?_⟩
  intro h
  have hi := start_inv {} true true
  have hruled := (reduce_endpoint hi.rules connect.remote).mp
    (h.route (.tcp, 5000) ⟨_, List.mem_cons_self, rfl, rfl⟩ connect.remote)
  obtain ⟨x, hmem⟩ := hruled
  exact start_not_packed {} true true _ x hmem

end Esp32Cam.Mav.GsNetwork
