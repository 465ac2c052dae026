/-
  Esp32Cam.Cam.Streaming — the stream of the camera, and the client that gets it.

  A thread accepts one TCP connection at a time (`CameraStreamTcpControl`). It announces
  the client, reads until the connection ends, closes it and announces its end. The
  sender (`FrameSender`) keeps a list of the clients, and sends each frame in a datagram to those
  that are enabled, at the port of their connection. When a station leaves the Wi-Fi, whichever it
  is, the socket is closed by another thread, wherever this one is.

  The list has no lock: a frame goes through it client by client, and the thread may
  announce between any two of these steps, also between the test of a client and the send to it.

  - `frames_go_to_the_client`: a frame that no announcement falls into goes to the client whose
    connection has been announced and whose end has not, once, and to nobody else. Any
    frame goes to nobody twice, and to none that was not connected at some time of it.
  - `clients_listed_once`: the list holds every endpoint that has ever been announced,
    once. None is taken out of it.
-/

import Esp32Cam.Lib.PartialRun

namespace Esp32Cam.Cam

open Esp32Cam.Lib

structure Endpoint where
  address : Nat
  port : Nat
  deriving DecidableEq, Repr

/-! ## The sender -/

structure Client where
  endpoint : Endpoint
  enabled : Bool
  deriving DecidableEq, Repr

/-- The first client with this endpoint is enabled; `none` if there is none. -/
def enable (endpoint : Endpoint) : List Client → Option (List Client)
  | [] => none
  | client :: clients =>
    if client.endpoint = endpoint then some ({ endpoint, enabled := true } :: clients)
    else (enable endpoint clients).map (client :: ·)

def processTcpConnected (clients : List Client) (endpoint : Endpoint) : List Client :=
  (enable endpoint clients).getD ({ endpoint, enabled := true } :: clients)

def processTcpDisconnected (clients : List Client) (address : Nat) : List Client :=
  clients.map fun client => if client.endpoint.address = address then { client with enabled := false } else client

/-- Where a frame is sent to if nothing comes in between. -/
def processFrame (clients : List Client) : List Endpoint := (clients.filter (·.enabled)).map (·.endpoint)

/-! ## The connection -/

/-- Where the thread stands: before which of its steps. -/
inductive ConnectionStage where
  | accepting
  | announcing (clientEndpoint : Endpoint)
  | receiving (clientEndpoint : Endpoint)
  | closing (clientEndpoint : Endpoint)
  | announcingEnd (clientEndpoint : Endpoint)
  deriving DecidableEq, Repr

inductive Received where
  | data
  | connectionReset
  | eof
  | badDescriptor
  | other
  deriving DecidableEq, Repr

def Received.ends : Received → Bool
  | .connectionReset | .eof | .badDescriptor => true
  | .data | .other => false

/-- The client whose connection has been announced, and its end has not. -/
def ConnectionStage.client : ConnectionStage → Option Endpoint
  | .accepting | .announcing _ => none
  | .receiving clientEndpoint | .closing clientEndpoint | .announcingEnd clientEndpoint => some clientEndpoint

namespace Streaming

/-- `processFrame` on its way through the list. It has `ahead` clients before it, which are the last ones of the
    list: clients are added in front. `found` is enabled, and has not been sent to yet. The other two fields are kept
    for the statements: the clients that have been connected since the frame began, and whether an
    announcement has fallen into it. -/
structure Pass where
  ahead : Nat
  found : Option Endpoint := none
  sent : List Endpoint := []
  connected : List Endpoint
  overlapped : Bool := false
  deriving DecidableEq, Repr

def Pass.before (pass : Pass) (clients : List Client) : List Client := clients.drop (clients.length - pass.ahead)

/-- `if (client.enabled)`, of the next client. -/
def Pass.test (pass : Pass) (clients : List Client) : Option Pass :=
  match pass.found, pass.before clients with
  | none, client :: _ =>
    some { pass with ahead := pass.ahead - 1, found := if client.enabled then some client.endpoint else none }
  | _, _ => none

/-- `socket.send_to`, whose error is dropped. -/
def Pass.send (pass : Pass) : Option Pass :=
  pass.found.map fun endpoint => { pass with found := none, sent := pass.sent ++ [endpoint] }

/-- An announcement falls into the frame, of this client or of an end. -/
def Pass.overlap (pass : Pass) (client : Option Endpoint) : Pass :=
  { pass with connected := client.toList ++ pass.connected, overlapped := true }

inductive FrameStep where
  | start
  | test
  | send
  | finish
  deriving DecidableEq, Repr

/-- One frame is on its way at a time: the subscription is locked. -/
def frameStep (clients : List Client) (client : Option Endpoint) : FrameStep → Option Pass → Option (Option Pass)
  | .start, none => some (some { ahead := clients.length, connected := client.toList })
  | .test, some pass => (pass.test clients).map some
  | .send, some pass => pass.send.map some
  | .finish, some pass => if pass.found = none ∧ pass.ahead = 0 then some none else none
  | _, _ => none

/-- `announced` are the clients that have been announced, the last one first; `frame` is the one on its way. -/
structure State where
  stage : ConnectionStage := .accepting
  socketOpen : Bool := false
  clients : List Client := []
  announced : List Endpoint := []
  frame : Option Pass := none
  deriving DecidableEq, Repr

/-- The steps of the thread, with what comes over the network; a station that leaves the Wi-Fi; the steps of a frame. -/
inductive Event where
  | accept (clientEndpoint : Option Endpoint)
  | announce
  | receive (received : Received)
  | close
  | announceEnd
  | apClientDisconnected
  | frame (frameStep : FrameStep)
  deriving DecidableEq, Repr

def step (s : State) (e : Event) : Option State :=
  match e, s.stage with
  | .accept none, .accepting => some s
  | .accept (some clientEndpoint), .accepting =>
    -- an open socket is refused
    some (if s.socketOpen then s else { s with stage := .announcing clientEndpoint, socketOpen := true })
  | .announce, .announcing clientEndpoint =>
    some { s with
      stage := .receiving clientEndpoint
      clients := processTcpConnected s.clients clientEndpoint
      announced := clientEndpoint :: s.announced
      frame := s.frame.map (·.overlap (some clientEndpoint)) }
  | .receive received, .receiving clientEndpoint =>
    if (if s.socketOpen then received else .badDescriptor).ends then some { s with stage := .closing clientEndpoint }
    else some s
  | .close, .closing clientEndpoint => some { s with stage := .announcingEnd clientEndpoint, socketOpen := false }
  | .announceEnd, .announcingEnd clientEndpoint =>
    -- of the clients at the address one at most is enabled: the loop over them writes once
    some { s with
      stage := .accepting
      clients := processTcpDisconnected s.clients clientEndpoint.address
      frame := s.frame.map (·.overlap none) }
  | .apClientDisconnected, _ => some { s with socketOpen := false }
  | .frame pass, stage => (frameStep s.clients stage.client pass s.frame).map fun frame => { s with frame }
  | _, _ => none

/-! ## The list of the clients -/

section
variable {clients : List Client} {endpoint : Endpoint} {address : Nat}

def endpoints (clients : List Client) : List Endpoint := clients.map (·.endpoint)

theorem enable_cases (endpoint : Endpoint) (clients : List Client) :
    (enable endpoint clients = none ∧ endpoint ∉ endpoints clients) ∨
    ∃ before client after, clients = before ++ client :: after ∧ client.endpoint = endpoint ∧
      enable endpoint clients = some (before ++ ⟨endpoint, true⟩ :: after) := by
  induction clients with
  | nil => exact Or.inl ⟨rfl, List.not_mem_nil⟩
  | cons first clients ih =>
    by_cases hfirst : first.endpoint = endpoint
    · exact Or.inr ⟨[], first, clients, rfl, hfirst, if_pos hfirst⟩
    · rcases ih with ⟨hnone, hnew⟩ | ⟨before, client, after, rfl, hclient, henabled⟩
      · refine Or.inl ⟨?_, List.not_mem_cons_of_ne_of_not_mem (Ne.symm hfirst) hnew⟩
        rw [enable, if_neg hfirst, hnone]
        rfl
      · refine Or.inr ⟨first :: before, client, after, rfl, hclient, ?_⟩
        rw [enable, if_neg hfirst, henabled]
        rfl

/-- With nobody enabled, the new client is the only one. -/
theorem processFrame_connected (h : processFrame clients = []) :
    processFrame (processTcpConnected clients endpoint) = [endpoint] := by
  have hnone : clients.filter (·.enabled) = [] := List.map_eq_nil_iff.mp h
  rcases enable_cases endpoint clients with ⟨hnew, -⟩ | ⟨before, client, after, rfl, -, henabled⟩
  · rw [processTcpConnected, hnew, Option.getD_none, processFrame, List.filter_cons_of_pos rfl, hnone]
    rfl
  · rw [List.filter_append, List.append_eq_nil_iff] at hnone
    have hafter : after.filter (·.enabled) = [] := by
      have hrest := hnone.2
      rw [List.filter_cons] at hrest
      split at hrest
      · cases hrest
      · exact hrest
    rw [processTcpConnected, henabled, Option.getD_some, processFrame, List.filter_append, hnone.1,
      List.filter_cons_of_pos rfl, hafter]
    rfl

/-- The list is as it was, or has the client in front. -/
theorem endpoints_connected : endpoints (processTcpConnected clients endpoint) =
    if endpoint ∈ endpoints clients then endpoints clients else endpoint :: endpoints clients := by
  rcases enable_cases endpoint clients with ⟨hnone, hnew⟩ | ⟨before, client, after, rfl, rfl, henabled⟩
  · rw [if_neg hnew, processTcpConnected, hnone]
    rfl
  · have hmem : client.endpoint ∈ endpoints (before ++ client :: after) :=
      List.mem_map_of_mem (List.mem_append_right _ List.mem_cons_self)
    rw [if_pos hmem, processTcpConnected, henabled]
    simp [endpoints]

theorem endpoints_disconnected : endpoints (processTcpDisconnected clients address) = endpoints clients := by
  rw [endpoints, processTcpDisconnected, List.map_map]
  refine List.map_congr_left fun client _ => ?_
  rw [Function.comp_apply]
  split <;> rfl

/-- The frames end for the clients at the address. -/
theorem processFrame_disconnected : processFrame (processTcpDisconnected clients address) =
    (processFrame clients).filter (·.address ≠ address) := by
  induction clients with
  | nil => rfl
  | cons client clients ih =>
    have hcons : processTcpDisconnected (client :: clients) address =
        (if client.endpoint.address = address then { client with enabled := false } else client) ::
          processTcpDisconnected clients address := rfl
    rw [hcons]
    unfold processFrame at ih ⊢
    by_cases haddress : client.endpoint.address = address
    · cases henabled : client.enabled <;> simp [haddress, henabled, ih]
    · cases henabled : client.enabled <;> simp [haddress, henabled, ih]

end

/-! ## A frame on its way -/

/-- What has been sent and what is still to be, once each; and what has been sent, to clients that have been connected. -/
structure Pass.Sound (pass : Pass) (clients : List Client) (client : Option Endpoint) : Prop where
  inside : pass.ahead ≤ clients.length
  once : (pass.sent ++ (pass.found.toList ++ endpoints (pass.before clients))).Nodup
  toConnected : pass.sent ++ pass.found.toList ⊆ pass.connected
  current : client.toList ⊆ pass.connected
  exact : pass.overlapped = false →
    pass.sent ++ (pass.found.toList ++ processFrame (pass.before clients)) = client.toList

section
variable {pass pass' : Pass} {clients clients' : List Client} {client : Option Endpoint}

theorem begin_sound (honce : (endpoints clients).Nodup) (hclient : processFrame clients = client.toList) :
    Pass.Sound { ahead := clients.length, connected := client.toList } clients client := by
  have hall : clients.drop (clients.length - clients.length) = clients := by rw [Nat.sub_self, List.drop_zero]
  refine ⟨Nat.le_refl _, ?_, List.nil_subset _, List.Subset.refl _, fun _ => ?_⟩
  · rw [Pass.before, hall]
    exact honce
  · rw [Pass.before, hall]
    exact hclient

theorem test_cases (h : pass.test clients = some pass') : ∃ next rest, pass.found = none ∧
    pass.before clients = next :: rest ∧
      pass' = { pass with ahead := pass.ahead - 1, found := if next.enabled then some next.endpoint else none } := by
  unfold Pass.test at h
  split at h
  · next next rest hfound hbefore => exact ⟨next, rest, hfound, hbefore, (Option.some.inj h).symm⟩
  · cases h

/-- The clients behind the one that is tested. -/
theorem before_tested {next : Client} {rest : List Client} (hinside : pass.ahead ≤ clients.length)
    (h : pass.before clients = next :: rest) : clients.drop (clients.length - (pass.ahead - 1)) = rest := by
  have hpos : 0 < pass.ahead := by
    refine Nat.pos_of_ne_zero fun hzero => ?_
    rw [Pass.before, hzero, Nat.sub_zero, List.drop_length] at h
    cases h
  have hnext : clients.length - (pass.ahead - 1) = clients.length - pass.ahead + 1 := by omega
  rw [hnext, ← List.drop_drop, show clients.drop (clients.length - pass.ahead) = next :: rest from h]
  rfl

theorem test_sound (hs : pass.Sound clients client) (h : pass.test clients = some pass')
    (hclient : processFrame clients = client.toList) : pass'.Sound clients client := by
  obtain ⟨next, rest, hfound, hbefore, rfl⟩ := test_cases h
  have hrest := before_tested hs.inside hbefore
  have honce := hs.once
  have hexact := hs.exact
  have hconnected := hs.toConnected
  rw [hbefore, hfound] at honce hexact
  rw [hfound, Option.toList_none, List.append_nil] at hconnected
  have hinside : pass.ahead - 1 ≤ clients.length := Nat.le_trans (Nat.sub_le _ _) hs.inside
  cases henabled : next.enabled with
  | false =>
    refine ⟨hinside, ?_, ?_, hs.current, fun hover => ?_⟩
    · rw [Pass.before, hrest, if_neg Bool.false_ne_true]
      exact honce.sublist ((List.sublist_cons_self _ _).append_left _)
    · rw [if_neg Bool.false_ne_true, Option.toList_none, List.append_nil]
      exact hconnected
    · rw [Pass.before, hrest, if_neg Bool.false_ne_true, ← hexact hover, processFrame, processFrame,
        List.filter_cons_of_neg (by rw [henabled]; exact Bool.false_ne_true)]
  | true =>
    have hmem : next.endpoint ∈ client.toList := by
      rw [← hclient]
      have hnext : next ∈ clients := List.mem_of_mem_drop (hbefore ▸ List.mem_cons_self)
      exact List.mem_map_of_mem (List.mem_filter.mpr ⟨hnext, henabled⟩)
    refine ⟨hinside, ?_, ?_, hs.current, fun hover => ?_⟩
    · rw [Pass.before, hrest, if_pos rfl]
      exact honce
    · rw [if_pos rfl]
      exact List.append_subset.mpr ⟨hconnected, List.cons_subset.mpr ⟨hs.current hmem, List.nil_subset _⟩⟩
    · rw [Pass.before, hrest, if_pos rfl, ← hexact hover, processFrame, processFrame,
        List.filter_cons_of_pos henabled]
      rfl

theorem send_sound (hs : pass.Sound clients client) (h : pass.send = some pass') : pass'.Sound clients client := by
  obtain ⟨endpoint, hfound, rfl⟩ := Option.map_eq_some_iff.mp h
  have honce := hs.once
  have hconnected := hs.toConnected
  have hexact := hs.exact
  rw [hfound] at honce hconnected hexact
  rw [Option.toList_some, ← List.append_assoc] at honce
  refine ⟨hs.inside, honce, ?_, hs.current, fun hover => ?_⟩
  · rw [Option.toList_none, List.append_nil]
    exact hconnected
  · rw [← hexact hover]
    exact List.append_assoc _ _ _

/-- A client that is added in front is none of those before the frame. -/
theorem endpoints_before (hinside : pass.ahead ≤ clients.length) (h : endpoints clients <:+ endpoints clients') :
    pass.ahead ≤ clients'.length ∧ endpoints (pass.before clients') = endpoints (pass.before clients) := by
  obtain ⟨new, h⟩ := h
  have hlength : clients'.length = new.length + clients.length := by
    have hlengths := congrArg List.length h.symm
    rwa [List.length_append, endpoints, endpoints, List.length_map, List.length_map] at hlengths
  have hdrop : clients'.length - pass.ahead = new.length + (clients.length - pass.ahead) := by omega
  refine ⟨by omega, ?_⟩
  rw [endpoints, Pass.before, List.map_drop, show clients'.map (·.endpoint) = new ++ endpoints clients from h.symm, hdrop,
    ← List.drop_drop, List.drop_left, endpoints, Pass.before, endpoints, List.map_drop]

/-- What an announcement leaves of a frame. -/
theorem overlap_sound (hs : pass.Sound clients client) (client' : Option Endpoint)
    (h : endpoints clients <:+ endpoints clients') : (pass.overlap client').Sound clients' client' := by
  obtain ⟨hinside, hbefore⟩ := endpoints_before hs.inside h
  refine ⟨hinside, ?_, ?_, List.subset_append_left _ _, nofun⟩
  · show (pass.sent ++ (pass.found.toList ++ endpoints (pass.before clients'))).Nodup
    rw [hbefore]
    exact hs.once
  · exact fun endpoint hmem => List.mem_append_right _ (hs.toConnected hmem)

end

/-! ## What every step keeps -/

structure Inv (s : State) : Prop where
  closed : s.stage = .accepting → s.socketOpen = false
  ended : ∀ clientEndpoint, s.stage = .announcingEnd clientEndpoint → s.socketOpen = false
  client : processFrame s.clients = s.stage.client.toList
  once : (endpoints s.clients).Nodup
  listed : ∀ endpoint, endpoint ∈ endpoints s.clients ↔ endpoint ∈ s.announced
  frame : ∀ pass ∈ s.frame, pass.Sound s.clients s.stage.client

/-- With nobody enabled, a client is announced. -/
theorem announce_inv {s : State} {clientEndpoint : Endpoint} (h : Inv s) (hstage : s.stage = .announcing clientEndpoint) :
    Inv { s with
      stage := .receiving clientEndpoint
      clients := processTcpConnected s.clients clientEndpoint
      announced := clientEndpoint :: s.announced
      frame := s.frame.map (·.overlap (some clientEndpoint)) } := by
  have hnone : processFrame s.clients = [] := by rw [h.client, hstage]; rfl
  refine ⟨nofun, nofun, processFrame_connected hnone, ?_, fun endpoint => ?_, fun pass hpass => ?_⟩
  · rw [endpoints_connected]
    split
    · exact h.once
    · exact List.nodup_cons.mpr ⟨by assumption, h.once⟩
  · rw [endpoints_connected, List.mem_cons, ← h.listed]
    split
    · constructor
      · exact Or.inr
      · rintro (rfl | hmem)
        · assumption
        · exact hmem
    · exact List.mem_cons
  · obtain ⟨pass, hframe, rfl⟩ := Option.map_eq_some_iff.mp hpass
    refine overlap_sound (h.frame pass hframe) _ ?_
    rw [endpoints_connected]
    split
    · exact List.suffix_refl _
    · exact List.suffix_cons _ _

/-- The client at the address is the only one that is enabled. -/
theorem announceEnd_inv {s : State} {clientEndpoint : Endpoint} (h : Inv s)
    (hstage : s.stage = .announcingEnd clientEndpoint) :
    Inv { s with
      stage := .accepting
      clients := processTcpDisconnected s.clients clientEndpoint.address
      frame := s.frame.map (·.overlap none) } := by
  have hone : processFrame s.clients = [clientEndpoint] := by rw [h.client, hstage]; rfl
  refine ⟨fun _ => h.ended clientEndpoint hstage, nofun, ?_, ?_, fun endpoint => ?_, fun pass hpass => ?_⟩
  · rw [processFrame_disconnected, hone]
    simp [ConnectionStage.client]
  · rw [endpoints_disconnected]
    exact h.once
  · rw [endpoints_disconnected]
    exact h.listed endpoint
  · obtain ⟨pass, hframe, rfl⟩ := Option.map_eq_some_iff.mp hpass
    exact overlap_sound (h.frame pass hframe) _ (endpoints_disconnected ▸ List.suffix_refl _)

theorem frameStep_sound {clients : List Client} {client : Option Endpoint} {pass : FrameStep} {frame frame' : Option Pass}
    (honce : (endpoints clients).Nodup) (hclient : processFrame clients = client.toList)
    (hs : ∀ pass ∈ frame, pass.Sound clients client) (h : frameStep clients client pass frame = some frame') :
    ∀ pass ∈ frame', pass.Sound clients client := by
  revert h
  fun_cases frameStep clients client pass frame with
  | case1 =>
    rintro ⟨⟩ pass ⟨⟩
    exact begin_sound honce hclient
  | case2 pass =>
    intro h pass' hpass'
    obtain ⟨_, htest, rfl⟩ := Option.map_eq_some_iff.mp h
    obtain rfl := Option.some.inj hpass'
    exact test_sound (hs pass rfl) htest hclient
  | case3 pass =>
    intro h pass' hpass'
    obtain ⟨_, hsend, rfl⟩ := Option.map_eq_some_iff.mp h
    obtain rfl := Option.some.inj hpass'
    exact send_sound (hs pass rfl) hsend
  | case4 =>
    rintro ⟨⟩
    exact nofun
  | case5 | case6 => exact nofun

/-- A step of the thread between two announcements changes neither the list nor whose connection has been announced. -/
theorem stage_inv {s : State} {stage : ConnectionStage} {socketOpen : Bool} (h : Inv s)
    (hclient : stage.client = s.stage.client) (hclosed : stage = .accepting → socketOpen = false)
    (hended : ∀ clientEndpoint, stage = .announcingEnd clientEndpoint → socketOpen = false) :
    Inv { s with stage, socketOpen } := by
  refine ⟨hclosed, hended, ?_, h.once, h.listed, ?_⟩
  · exact h.client.trans (congrArg Option.toList hclient.symm)
  · intro pass hpass
    show pass.Sound s.clients stage.client
    rw [hclient]
    exact h.frame pass hpass

theorem step_inv {s s' : State} {e : Event} (hstep : step s e = some s') (h : Inv s) : Inv s' := by
  revert hstep
  fun_cases step s e with
  | case1 _ | case5 _ _ _ _ =>
    rintro ⟨⟩
    exact h
  | case2 clientEndpoint hstage =>
    rw [h.closed hstage, if_neg Bool.false_ne_true]
    rintro ⟨⟩
    exact stage_inv h (by rw [hstage]; rfl) nofun nofun
  | case3 clientEndpoint hstage =>
    rintro ⟨⟩
    exact announce_inv h hstage
  | case4 _ clientEndpoint hstage _ =>
    rintro ⟨⟩
    exact stage_inv h (by rw [hstage]; rfl) nofun nofun
  | case6 clientEndpoint hstage =>
    rintro ⟨⟩
    exact stage_inv h (by rw [hstage]; rfl) nofun fun _ _ => rfl
  | case7 clientEndpoint hstage =>
    rintro ⟨⟩
    exact announceEnd_inv h hstage
  | case8 =>
    rintro ⟨⟩
    exact stage_inv h rfl (fun _ => rfl) fun _ _ => rfl
  | case9 =>
    intro hstep
    obtain ⟨frame', hframe, rfl⟩ := Option.map_eq_some_iff.mp hstep
    exact ⟨h.closed, h.ended, h.client, h.once, h.listed, frameStep_sound h.once h.client h.frame hframe⟩
  | case10 => exact nofun

theorem inv_initial : Inv {} := ⟨fun _ => rfl, nofun, rfl, List.nodup_nil, fun _ => Iff.rfl, nofun⟩

/-! ## Frames and connections -/

/-- What is asked of a frame that finishes, by the client that is connected then. -/
structure Pass.Delivered (pass : Pass) (client : Option Endpoint) : Prop where
  once : pass.sent.Nodup
  toConnected : pass.sent ⊆ pass.connected
  exact : pass.overlapped = false → pass.sent = client.toList

theorem Pass.Sound.delivered {pass : Pass} {clients : List Client} {client : Option Endpoint} (h : pass.Sound clients client)
    (hfound : pass.found = none) (hahead : pass.ahead = 0) : pass.Delivered client := by
  have hbefore : pass.before clients = [] := by rw [Pass.before, hahead, Nat.sub_zero, List.drop_length]
  have honce := h.once
  have hconnected := h.toConnected
  have hexact := h.exact
  rw [hfound, hbefore] at honce hexact
  rw [hfound] at hconnected
  refine ⟨?_, ?_, fun hover => ?_⟩
  · exact (List.append_nil pass.sent) ▸ honce
  · exact (List.append_nil pass.sent) ▸ hconnected
  · exact (List.append_nil pass.sent) ▸ hexact hover

/-- In every run a frame that no announcement falls into goes to the client whose connection has been announced and
    whose end has not, and to nobody else; any frame goes to clients that have been connected in the time of it, once
    each; and no connection is refused for the socket of the one before. -/
theorem frames_go_to_the_client (events : List Event) :
    PartialRun.Along step (fun s e s' =>
      (e = .frame .finish → ∀ pass ∈ s.frame, pass.Delivered s.stage.client) ∧
      ∀ clientEndpoint, e = .accept (some clientEndpoint) → s'.stage = .announcing clientEndpoint) {} events := by
  refine PartialRun.along_of_step (I := Inv) (fun s e s' hs hi => step_inv hs hi) (fun s e s' hs hi => ?_) inv_initial events
  constructor
  · rintro rfl pass hpass
    obtain ⟨frame', hframe, rfl⟩ := Option.map_eq_some_iff.mp hs
    rw [show s.frame = some pass from hpass, frameStep] at hframe
    split at hframe
    · next hdone => exact (hi.frame pass hpass).delivered hdone.1 hdone.2
    · cases hframe
  · rintro clientEndpoint rfl
    cases hstage : s.stage with
    | accepting =>
      simp only [step, hstage, hi.closed hstage] at hs
      obtain rfl := Option.some_inj.mp hs
      rfl
    | announcing _ | receiving _ | closing _ | announcingEnd _ =>
      simp only [step, hstage] at hs
      cases hs

def visit (clientEndpoint : Endpoint) : List Event := [.accept (some clientEndpoint), .announce]

def leave : List Event := [.receive .eof, .close, .announceEnd]

def frameSteps (steps : List FrameStep) : List Event := steps.map .frame

-- The client that is found leaves before it is sent to, and the next one is behind it in the list.
example : ((visit ⟨1, 5000⟩ ++ leave ++ visit ⟨2, 5000⟩ ++ frameSteps [.start, .test] ++ leave ++ visit ⟨1, 5000⟩ ++
    frameSteps [.send, .test, .send]).foldlM step {}).map (·.frame.map (·.sent)) = some (some [⟨2, 5000⟩, ⟨1, 5000⟩]) := by
  decide

/-- In every state of a run the sender has every client that has ever been announced, once. -/
theorem clients_listed_once (events : List Event) :
    PartialRun.Always step (fun s => (endpoints s.clients).Nodup ∧
      ∀ endpoint, endpoint ∈ endpoints s.clients ↔ endpoint ∈ s.announced) {} events :=
  PartialRun.always_of_step (I := Inv) (fun _ _ _ hs hi => step_inv hs hi) (fun _ hi => ⟨hi.once, hi.listed⟩) inv_initial events

end Streaming

end Esp32Cam.Cam
