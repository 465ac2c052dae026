/-
  Esp32Cam.Mav.Bridging — the bridge as a pair of lines.

  What is received on the UART goes to every client, and what is received from a client on
  MAVLink's port goes to the UART and makes the sender a client. Either way the bytes may
  pass through the dispatcher on their way: the two options of the configuration say so,
  and the two directions share its parser.

  The receivers and the rules are those of `Esp32Cam.Mav.RoutingCycles`. The rules of the
  bridge's own senders are the static ones (`Wired`), and stay so whatever other ports the
  autopilot opens and closes.

  - `bridge_is_a_pair_of_lines`: over every run in which the microservices take none of the messages
    that the dispatcher finds in what has come to it from both sides, each side is sent exactly the
    bytes of the other, in order: a client from its first datagram on.
  - `an_opened_port_is_no_line`: once the autopilot has opened the port of the clients, what comes
    to it reaches the UART twice.
-/

import Esp32Cam.Mav.RoutingCycles

namespace Esp32Cam.Mav.Bridging

open Esp32Cam.Lib Esp32Cam.Bdg Esp32Cam.Bdg.MavlinkRouting Esp32Cam.Mav.GsNetwork Esp32Cam.Mav.RoutingCycles
open Esp32Cam.Ut.Cont (ConstBuffer)
open Esp32Cam.Asio (Endpoint)

/-! ## The lines -/

inductive Event where
  | uart (buffer : ConstBuffer)
  | udp (client : Endpoint) (buffer : ConstBuffer)
  deriving DecidableEq

namespace Event

def fromUart : Event → List UInt8
  | uart buffer => buffer.bytes
  | udp .. => []

def fromUdp : Event → List UInt8
  | uart _ => []
  | udp _ buffer => buffer.bytes

def isFrom (client : Endpoint) : Event → Bool
  | uart _ => false
  | udp a _ => a = client

def processed (uart udp : Bool) : Event → List UInt8
  | .uart buffer => if uart then buffer.bytes else []
  | .udp _ buffer => if udp then buffer.bytes else []

def sender : Event → EndpointVariant
  | uart _ => .uartEndpoint getMavlinkUartNum
  | udp client _ => .udpEndpoint client getMavlinkUdpPort

def buffer : Event → ConstBuffer
  | uart buffer => buffer
  | udp _ buffer => buffer

end Event

/-- The clients, and the bytes sent to the UART and to each of them. -/
structure Lines where
  clients : List Endpoint
  toUart : List UInt8
  toClient : Endpoint → List UInt8

namespace Lines

def sendUart (l : Lines) (bytes : List UInt8) : Lines := { l with toUart := l.toUart ++ bytes }

def sendClients (l : Lines) (bytes : List UInt8) : Lines :=
  { l with toClient := fun a => l.toClient a ++ if a ∈ l.clients then bytes else [] }

def join (l : Lines) (client : Endpoint) : Lines :=
  if client ∈ l.clients then l else { l with clients := l.clients ++ [client] }

def step (l : Lines) : Event → Lines
  | .uart buffer => l.sendClients buffer.bytes
  | .udp client buffer => (l.sendUart buffer.bytes).join client

variable {l : Lines}

theorem sendUart_append (as bs : List UInt8) : (l.sendUart as).sendUart bs = l.sendUart (as ++ bs) := by
  simp [sendUart]

theorem sendClients_append (as bs : List UInt8) : (l.sendClients as).sendClients bs = l.sendClients (as ++ bs) := by
  simp only [sendClients, Lines.mk.injEq, true_and]
  funext a
  by_cases hmem : a ∈ l.clients <;> simp [hmem]

theorem sendUart_nil : l.sendUart [] = l := by simp [sendUart]

theorem sendClients_nil : l.sendClients [] = l := by simp [sendClients]

theorem join_toUart (a : Endpoint) : (l.join a).toUart = l.toUart := by
  unfold join
  split <;> rfl

theorem join_toClient (a : Endpoint) : (l.join a).toClient = l.toClient := by
  unfold join
  split <;> rfl

theorem mem_join {a b : Endpoint} : b ∈ (l.join a).clients ↔ b ∈ l.clients ∨ b = a := by
  unfold join
  split
  · next hmem => exact ⟨Or.inl, fun h => h.elim id fun heq => heq ▸ hmem⟩
  · simp

theorem join_nodup {a : Endpoint} (h : l.clients.Nodup) : (l.join a).clients.Nodup := by
  unfold join
  split
  · exact h
  · next hmem =>
    refine List.nodup_append.mpr ⟨h, List.nodup_singleton a, fun b hb c hc heq => hmem ?_⟩
    rw [List.mem_singleton.mp hc] at heq
    exact heq ▸ hb

theorem step_nodup (e : Event) (h : l.clients.Nodup) : (l.step e).clients.Nodup := by
  cases e with
  | uart buffer => exact h
  | udp client buffer => exact join_nodup h

/-- The UART is sent everything that comes from the clients. -/
theorem run_toUart (l : Lines) (events : List Event) :
    (run step l events).toUart = l.toUart ++ events.flatMap Event.fromUdp := by
  induction events generalizing l with
  | nil => simp
  | cons e es ih =>
    rw [run_cons, ih, List.flatMap_cons, ← List.append_assoc]
    cases e with
    | uart buffer => simp [step, sendClients, Event.fromUdp]
    | udp client buffer => simp [step, join_toUart, sendUart, Event.fromUdp]

/-- A client is sent everything that comes from the UART, from its first datagram on. -/
theorem run_toClient (l : Lines) (events : List Event) (a : Endpoint) :
    (run step l events).toClient a = l.toClient a ++
      ((if a ∈ l.clients then events else events.dropWhile fun e => !e.isFrom a).flatMap Event.fromUart) := by
  induction events generalizing l with
  | nil => simp
  | cons e es ih =>
    rw [run_cons, ih]
    cases e with
    | uart buffer =>
      by_cases hmem : a ∈ l.clients
      · simp [step, sendClients, hmem, Event.fromUart]
      · simp [step, sendClients, hmem, Event.isFrom]
    | udp client buffer =>
      have htoClient : (step l (.udp client buffer)).toClient = l.toClient := join_toClient client
      have hclients : a ∈ (step l (.udp client buffer)).clients ↔ a ∈ l.clients ∨ a = client := mem_join
      rw [htoClient, if_congr hclients rfl rfl]
      by_cases hmem : a ∈ l.clients
      · simp [hmem, Event.fromUart]
      · by_cases heq : a = client
        · simp [heq, Event.isFrom, Event.fromUart]
        · simp [hmem, heq, Event.isFrom, Ne.symm heq]

end Lines

/-! ## The rules of the bridge's own senders -/

/-- The static rules are all there, and the clients' port has not been opened. -/
structure Wired (uart udp : Bool) (r : RoutingRules) : Prop where
  table : Table uart udp r
  static : ∀ t ∈ kStaticRoutingRules uart udp, t ∈ r.rulesOf
  unopened : ∀ x, (.udpPort getMavlinkUdpPort, .named .mavlinkIpPack, x) ∉ r.rulesOf

section
variable {uart udp : Bool} {r : RoutingRules} {o i x : EndpointVariant}

theorem static_not_packed : ∀ uart udp, ∀ t ∈ kStaticRoutingRules uart udp, t.2.1 ≠ .named .mavlinkIpPack := by decide

theorem init_static : ∀ uart udp, ∀ t ∈ kStaticRoutingRules uart udp,
    (init uart udp).lookup t.1 t.2.1 = some t.2.2 := by
  decide +kernel

theorem init_wired (uart udp : Bool) : Wired uart udp (init uart udp) where
  table := init_table uart udp
  static t ht := (RoutingRules.lookup_eq_some (init_sorted uart udp)).mp (init_static uart udp t ht)
  unopened _ hx := static_not_packed uart udp _ (init_subset uart udp hx) rfl

/-- Only what is received at the clients' port may not be packed. -/
theorem change_wired (h : Wired uart udp r) {c : Change} (hc : c ≠ .opened (.udp, getMavlinkUdpPort)) :
    Wired uart udp (c.apply r) := by
  have htable := change_table h.table c
  cases c with
  | opened port =>
    refine ⟨htable, fun t ht => ?_, fun x hx => ?_⟩
    · obtain ⟨hruled, hnew⟩ := RoutingRules.addStatic_rulesOf h.table.sorted (origin_no_alternative port)
        (i := .named .mavlinkIpPack) (.named .mavlinkIpPackForwarded)
      by_cases hold : r.Ruled port.origin (.named .mavlinkIpPack)
      · rw [Change.apply, hruled hold]
        exact h.static t ht
      · rw [Change.apply, hnew hold]
        exact Or.inr (h.static t ht)
    · rcases RoutingRules.addStatic_subset _ hx with heq | hx
      · have horigin : port.origin = .udpPort getMavlinkUdpPort := (congrArg Prod.fst heq).symm
        rcases port with ⟨_ | _, port⟩
        · cases horigin
        · cases horigin
          exact hc rfl
      · exact h.unopened x hx
  | closed port =>
    have hrules := RoutingRules.remove_rulesOf h.table.sorted (origin_no_alternative port) (i := .named .mavlinkIpPack)
    refine ⟨htable, fun t ht => ?_, fun x hx => ?_⟩
    · rw [Change.apply, hrules]
      exact ⟨h.static t ht, fun heq => static_not_packed uart udp t ht (congrArg Prod.snd heq)⟩
    · rw [Change.apply, hrules] at hx
      exact h.unopened x hx.1

theorem changes_wired (h : Wired uart udp r) {changes : List Change}
    (hchanges : .opened (.udp, getMavlinkUdpPort) ∉ changes) : Wired uart udp (applyAll r changes) := by
  induction changes generalizing r with
  | nil => exact h
  | cons c changes ih =>
    rw [List.mem_cons, not_or] at hchanges
    exact ih (change_wired h (Ne.symm hchanges.1)) hchanges.2

/-- What the static rules reduce the sender to. -/
def staticRule (uart udp : Bool) (o i : EndpointVariant) : Option EndpointVariant :=
  ((kStaticRoutingRules uart udp).find? fun t => t.1 = o ∧ t.2.1 = i).map fun t => t.2.2

theorem lookup_static (h : Wired uart udp r) (ho : o = .udpPort getMavlinkUdpPort ∨ ∀ port : Key, o ≠ port.origin) :
    r.lookup o i = staticRule uart udp o i := by
  unfold staticRule
  cases hfind : (kStaticRoutingRules uart udp).find? fun t => t.1 = o ∧ t.2.1 = i with
  | some t =>
    have hkey := List.find?_some hfind
    obtain ⟨rfl, rfl⟩ := of_decide_eq_true hkey
    exact (RoutingRules.lookup_eq_some h.table.sorted).mpr (h.static t (List.mem_of_find?_eq_some hfind))
  | none =>
    refine (RoutingRules.lookup_eq_none h.table.sorted).mpr fun hruled => ?_
    obtain ⟨x, hx⟩ := hruled
    rcases h.table.rules _ hx with hstatic | ⟨port, heq⟩
    · exact of_decide_eq_false (Bool.eq_false_iff.mpr (List.find?_eq_none.mp hfind _ hstatic)) ⟨rfl, rfl⟩
    · cases heq
      rcases ho with hport | hport
      · rw [hport] at hx
        exact h.unopened _ hx
      · exact hport port rfl

theorem reduced_bare (h : Wired uart udp r) (hbare : o.asAlternative = [])
    (ho : o = .udpPort getMavlinkUdpPort ∨ ∀ port : Key, o ≠ port.origin) :
    reduced r o i = staticRule uart udp o i := by
  rw [reduced, RoutingRules.reduce_eq, hbare, List.findSome?_nil, Option.or_none, lookup_static h ho]
  cases staticRule uart udp o i <;> rfl

theorem static_no_endpoint (a : Endpoint) (port : UInt16) :
    staticRule uart udp (.udpEndpoint a port) i = none ∧ staticRule uart udp (.udp a) i = none := by
  constructor <;> cases uart <;> cases udp <;> rfl

theorem reduced_udpEndpoint (h : Wired uart udp r) (a : Endpoint) :
    reduced r (.udpEndpoint a getMavlinkUdpPort) i = staticRule uart udp (.udpPort getMavlinkUdpPort) i := by
  have hno : ∀ port : Key, EndpointVariant.udpEndpoint a getMavlinkUdpPort ≠ port.origin := by
    rintro ⟨_ | _, port⟩ heq <;> cases heq
  have hno' : ∀ port : Key, EndpointVariant.udp a ≠ port.origin := by
    rintro ⟨_ | _, port⟩ heq <;> cases heq
  rw [reduced, RoutingRules.reduce_eq, EndpointVariant.asAlternative, lookup_static h (Or.inr hno)]
  simp only [List.findSome?_cons, List.findSome?_nil, lookup_static h (Or.inr hno'), lookup_static h (Or.inl rfl),
    static_no_endpoint a getMavlinkUdpPort, Option.none_or]
  cases staticRule uart udp (.udpPort getMavlinkUdpPort) i <;> rfl

end

/-! ## The receivers on the lines -/

section
variable {π M μ ρ : Type}

def lines (w : World π M μ) : Lines where
  clients := w.clientsUdp
  toUart := w.sentUart.flatten
  toClient a := (w.sentUdp.filter fun sent => sent.1 = a).flatMap Prod.snd

variable {lib : Mavlink π M} {mic : Aggregate M μ} {w : World π M μ}

theorem uartHook_lines (w : World π M μ) (ctx : NotifyCtx EndpointVariant ρ) :
    lines (uartHook.onReceive w ctx).1 = (lines w).sendUart ctx.buffer.bytes := by
  simp [lines, uartHook, Lines.sendUart]

theorem filter_pair (clients : List Endpoint) (bytes : List UInt8) (a : Endpoint) (h : clients.Nodup) :
    ((clients.map fun endpoint => (endpoint, bytes)).filter fun sent => sent.1 = a).flatMap Prod.snd =
      if a ∈ clients then bytes else [] := by
  induction clients with
  | nil => rfl
  | cons b clients ih =>
    obtain ⟨hnew, hrest⟩ := List.nodup_cons.mp h
    rw [List.map_cons, List.filter_cons]
    by_cases heq : b = a
    · subst heq
      simp [ih hrest, hnew]
    · simp [heq, Ne.symm heq, ih hrest]

/-- Each client is sent the bytes once. -/
theorem udpNotifier_lines (w : World π M μ) (ctx : NotifyCtx EndpointVariant ρ) (h : w.clientsUdp.Nodup) :
    lines (udpNotifier.onReceive w ctx).1 = (lines w).sendClients ctx.buffer.bytes := by
  simp only [lines, udpNotifier, Lines.sendClients, List.filter_append, List.flatMap_append,
    filter_pair w.clientsUdp ctx.buffer.bytes _ h]
  rfl

theorem udpHook_lines (w : World π M μ) (a : Endpoint) (buffer : ConstBuffer) (respondCb : ρ) :
    lines (udpHook.onReceive w ⟨.udpEndpoint a getMavlinkUdpPort, buffer, respondCb⟩).1 = (lines w).join a := by
  by_cases hmem : a ∈ w.clientsUdp <;> simp [lines, udpHook, Lines.join, hmem]

/-- A receiver that does not touch the buffer, and forwards nothing, is visited once. -/
theorem notifyReceiver_leaf {σ ε : Type} {cycle : σ → NotifyCtx ε ρ → Option σ} {r : Receiver σ ε ρ}
    {ctx : NotifyCtx ε ρ} {reduced : ε} {world : σ} {n : Nat} {l : Loop σ ε ρ}
    (hleaf : (r.onReceive world ctx).2 = ([], ctx.buffer))
    (h : notifyReceiver cycle n r ctx reduced world = some l) : l.world = (r.onReceive world ctx).1 := by
  cases n with
  | zero => cases h
  | succ n =>
    rw [notifyReceiver, revisit, Option.bind_eq_some_iff] at h
    obtain ⟨l₁, hvisit, h⟩ := h
    obtain ⟨v, hv⟩ := visit_visited hvisit
    have hforwards : v.forwards = [] := hv.forwards.trans (congrArg Prod.fst hleaf)
    have hconsumes : v.consumes = true := by rw [Visit.consumes, hforwards, List.isEmpty_nil]
    have hslice : l₁.bufferSlice = ctx.buffer := hv.left.symm.trans (hv.sliced.trans (congrArg Prod.snd hleaf))
    have hstop : ¬ l₁.continues ctx = true := by simp [Loop.continues, hslice]
    rw [if_neg hstop] at h
    obtain rfl := Option.some_inj.mp h
    exact hv.quiet ((hv.behind hconsumes).mpr rfl)

theorem udpHook_leaf (w : World π M μ) (ctx : NotifyCtx EndpointVariant ρ) :
    (udpHook.onReceive w ctx).2 = ([], ctx.buffer) ∧ (udpHook.onReceive w ctx).1.dispatcher = w.dispatcher := by
  dsimp only [udpHook]
  split
  · split <;> exact ⟨rfl, rfl⟩
  · exact ⟨rfl, rfl⟩

/-! ## What has passed the dispatcher -/

/-- `w'` is `w` behind the bytes `bs` on their way through the dispatcher: where the microservices
    take none of their messages, they have been sent on. -/
structure Passed (lib : Mavlink π M) (mic : Aggregate M μ) (send : Lines → List UInt8 → Lines) (w : World π M μ)
    (bs : List UInt8) (w' : World π M μ) : Prop where
  state : w'.dispatcher.state = (feed (byteStep lib mic) w.dispatcher.state bs).1
  sent : (∀ h ∈ (feed (byteStep lib mic) w.dispatcher.state bs).2, h.ret = .ignored) → w.clientsUdp.Nodup →
    lines w' = send (lines w) bs

/-- Sending in pieces is sending, and changes no clients. -/
structure Sends (send : Lines → List UInt8 → Lines) : Prop where
  nil : ∀ l, send l [] = l
  append : ∀ l as bs, send (send l as) bs = send l (as ++ bs)
  clients : ∀ l bs, (send l bs).clients = l.clients

theorem sends_uart : Sends Lines.sendUart :=
  ⟨fun _ => Lines.sendUart_nil, fun _ => Lines.sendUart_append, fun _ _ => rfl⟩

theorem sends_clients : Sends Lines.sendClients :=
  ⟨fun _ => Lines.sendClients_nil, fun _ => Lines.sendClients_append, fun _ _ => rfl⟩

variable {send : Lines → List UInt8 → Lines} {w' w'' : World π M μ} {as bs : List UInt8}

theorem Passed.refl (hsend : Sends send) (w : World π M μ) : Passed lib mic send w [] w :=
  ⟨rfl, fun _ _ => (hsend.nil _).symm⟩

theorem Passed.trans (hsend : Sends send) (h : Passed lib mic send w as w') (h' : Passed lib mic send w' bs w'') :
    Passed lib mic send w (as ++ bs) w'' := by
  have happ := feed_append (byteStep lib mic) w.dispatcher.state as bs
  rw [← h.state] at happ
  refine ⟨?_, fun hall hnodup => ?_⟩
  · rw [happ]; exact h'.state
  · rw [happ] at hall
    have hfirst := h.sent (fun x hx => hall x (List.mem_append_left _ hx)) hnodup
    have hclients : w'.clientsUdp = w.clientsUdp := by
      have := congrArg Lines.clients hfirst
      rw [hsend.clients] at this
      exact this
    have hsecond := h'.sent (fun x hx => hall x (List.mem_append_right _ hx)) (by rw [hclients]; exact hnodup)
    rw [hsecond, hfirst, hsend.append]

/-- While `P` holds of the microservices, the nested cycle sends the bytes on, and leaves the dispatcher. -/
def Delivers (send : Lines → List UInt8 → Lines) (reduced : EndpointVariant)
    (cycle : World π M μ → NotifyCtx EndpointVariant ρ → Option (World π M μ)) (P : μ → Prop) : Prop :=
  ∀ w next w', P w.dispatcher.micAggregate → next.endpointVariant = reduced → cycle w next = some w' →
    w'.dispatcher = w.dispatcher ∧ (w.clientsUdp.Nodup → lines w' = send (lines w) next.buffer.bytes)

section
variable {cycle : World π M μ → NotifyCtx EndpointVariant ρ → Option (World π M μ)} {reduced : EndpointVariant}
variable {ctx : NotifyCtx EndpointVariant ρ} {P : μ → Prop} {l l' : Loop (World π M μ) EndpointVariant ρ}
variable {v : Visit EndpointVariant ρ}

/-- What the microservices keep, the dispatcher keeps. -/
theorem dispatcher_keeps (lib : Mavlink π M) (hmic : ∀ state message, P state → P (mic state message).1)
    (hw : P w.dispatcher.micAggregate) (ctx : NotifyCtx EndpointVariant ρ) :
    P ((dispatcherReceiver lib mic).onReceive w ctx).1.dispatcher.micAggregate := by
  have hstate : (w.dispatcher.onReceive lib mic ctx).1.micAggregate =
      (w.dispatcher.reads lib mic ctx.buffer).2.1.2 := congrArg Prod.snd (onReceive_eq lib mic w.popped ctx).1
  show P (w.dispatcher.onReceive lib mic ctx).1.micAggregate
  rw [hstate, Dispatcher.reads, readOne_byteStep]
  dsimp only
  cases (readOne lib.frameCharBuffer w.dispatcher.state.1 ctx.buffer.bytes).2.2 with
  | none => exact hw
  | some message => exact hmic _ message hw

/-- Whatever a visit starts, it starts under the endpoint the sender reduces to. -/
theorem visit_sender {r : Receiver (World π M μ) EndpointVariant ρ} (h : visit cycle r ctx reduced l = some l')
    (hv : Visited cycle r ctx reduced l v l') {next : NotifyCtx EndpointVariant ρ} (hs : v.started = some next) :
    next.endpointVariant = reduced := by
  have hvisits := hv.visits
  unfold visit at h
  rcases hret : r.onReceive l.world { ctx with buffer := l.bufferSlice } with ⟨world, forwards, left⟩
  rw [hret] at h
  simp only [foldl_forwardCb] at h
  split at h
  · obtain ⟨w, -, rfl⟩ := Option.map_eq_some_iff.mp h
    have hlast := List.singleton_inj.mp (List.append_cancel_left hvisits)
    rw [← hlast] at hs
    rw [← Option.some_inj.mp hs]
  · obtain rfl := Option.some_inj.mp h
    have hlast := List.singleton_inj.mp (List.append_cancel_left hvisits)
    rw [← hlast] at hs
    cases hs

/-- Of one visit: its piece passes. -/
theorem visit_passed (hmic : ∀ state message, P state → P (mic state message).1)
    (hcycle : Delivers send reduced cycle P) (hl : P l.world.dispatcher.micAggregate)
    (hvisit : visit cycle (dispatcherReceiver lib mic) ctx reduced l = some l')
    (hv : Visited cycle (dispatcherReceiver lib mic) ctx reduced l v l') :
    P l'.world.dispatcher.micAggregate ∧ Passed lib mic send l.world
      (l.bufferSlice.bytes.take (l.world.dispatcher.reads lib mic l.bufferSlice).1) l'.world := by
  obtain ⟨hstate, -, -, hforwards, -, -⟩ := onReceive_eq lib mic l.world.popped { ctx with buffer := l.bufferSlice }
  have hkept := dispatcher_keeps (w := l.world) lib hmic hl { ctx with buffer := l.bufferSlice }
  have hfeed : feed (byteStep lib mic) l.world.dispatcher.state
      (l.bufferSlice.bytes.take (l.world.dispatcher.reads lib mic l.bufferSlice).1) =
      ((l.world.dispatcher.reads lib mic l.bufferSlice).2.1,
        (l.world.dispatcher.reads lib mic l.bufferSlice).2.2.toList) :=
    feed_take_readOne _ _ _
  -- the dispatcher is left as it has received the buffer, whatever cycle is started
  have hdispatcher : l'.world.dispatcher =
      ((dispatcherReceiver lib mic).onReceive l.world { ctx with buffer := l.bufferSlice }).1.dispatcher := by
    cases hs : v.started with
    | none => rw [hv.quiet hs]
    | some next =>
      have hsender : next.endpointVariant = reduced := visit_sender hvisit hv hs
      exact (hcycle _ next _ hkept hsender (hv.cycled next hs)).1
  refine ⟨by rw [hdispatcher]; exact hkept, ?_, fun hall hnodup => ?_⟩
  · rw [hfeed, hdispatcher]
    exact hstate
  · have hpass : passes (l.world.dispatcher.reads lib mic l.bufferSlice).2.2 = true := by
      rw [hfeed] at hall
      cases ho : (l.world.dispatcher.reads lib mic l.bufferSlice).2.2 with
      | none => rfl
      | some h =>
        have := hall h (by rw [ho]; exact List.mem_singleton_self h)
        simp [passes, this]
    dsimp only at hforwards
    rw [if_pos hpass] at hforwards
    have hforwarded : v.forwards = _ := hv.forwards.trans hforwards
    have hstarted := hv.asked (by rw [Visit.consumes, hforwarded]; rfl)
    rw [Visit.asked, hforwarded] at hstarted
    have hlines := (hcycle _ _ _ hkept rfl (hv.cycled _ hstarted)).2 hnodup
    rw [hlines]
    show send (lines l.world) ((l.bufferSlice.asSlice 0 _).bytes) = _
    rw [ConstBuffer.asSlice, List.drop_zero]

theorem dispatcher_slices (lib : Mavlink π M) (mic : Aggregate M μ) :
    Slices (dispatcherReceiver lib mic : Receiver (World π M μ) EndpointVariant ρ) := by
  intro w ctx
  have h := onReceive_eq lib mic w.popped ctx
  refine ⟨(w.dispatcher.reads lib mic ctx.buffer).1, readOne_le _ _ _, fun hpos => readOne_pos _ _ ?_, h.2.2.2.2.2⟩
  exact List.ne_nil_of_length_pos hpos

/-- The buffer passes the dispatcher, in as many pieces as there are messages in it. -/
theorem notifyReceiver_passed {n : Nat}
    (h : notifyReceiver cycle n (dispatcherReceiver lib mic) ctx reduced w = some l) (hsend : Sends send)
    (hmic : ∀ state message, P state → P (mic state message).1)
    (hcycle : Delivers send reduced cycle P) (hw : P w.dispatcher.micAggregate) :
    P l.world.dispatcher.micAggregate ∧ Passed lib mic send w ctx.buffer.bytes l.world := by
  have hsliced := revisit_sliced (dispatcher_slices lib mic) ⟨rfl, rfl⟩ h
  rw [← hsliced]
  refine revisit_induct (P := fun l => P l.world.dispatcher.micAggregate ∧
    Passed lib mic send w (l.visits.map Visit.piece).flatten l.world) ?_ ⟨hw, .refl hsend w⟩ h
  intro l l' hprev hvisit
  obtain ⟨hl, hprev⟩ := hprev
  obtain ⟨v, hv⟩ := visit_visited hvisit
  have hn : (l.world.dispatcher.reads lib mic l.bufferSlice).1 ≤ l.bufferSlice.size := readOne_le _ _ _
  have hslice := (onReceive_eq lib mic l.world.popped { ctx with buffer := l.bufferSlice }).2.2.2.2.2
  obtain ⟨hl', hpassed⟩ := visit_passed hmic hcycle hl hvisit hv
  rw [(hv.pieces hn hslice).2]
  exact ⟨hl', hprev.trans hsend hpassed⟩

end

/-! ## The cycles -/

section
variable {route : EndpointVariant → Option EndpointVariant} {ctx : NotifyCtx EndpointVariant ρ}

/-- The receiver gets the buffer where there is a route. -/
def visited {σ ε : Type} (route : ε → Option ε) (r : Receiver σ ε ρ) (ctx : NotifyCtx ε ρ) (world : σ) : σ :=
  if (route r.endpointVariant).isSome then (r.onReceive world ctx).1 else world

theorem visited_of_leaf {σ ε : Type} {cycle : σ → NotifyCtx ε ρ → Option σ} {n : Nat} {route : ε → Option ε}
    {ctx : NotifyCtx ε ρ} {world world' : σ} (r : Receiver σ ε ρ) (hleaf : (r.onReceive world ctx).2 = ([], ctx.buffer))
    (h : (match route r.endpointVariant with
      | some reduced => (notifyReceiver cycle n r ctx reduced world).map Loop.world
      | none => some world) = some world') : world' = visited route r ctx world := by
  unfold visited
  cases hroute : route r.endpointVariant with
  | none =>
    rw [hroute] at h
    exact (Option.some_inj.mp h).symm
  | some reduced =>
    rw [hroute] at h
    obtain ⟨l, hl, rfl⟩ := Option.map_eq_some_iff.mp h
    exact notifyReceiver_leaf hleaf hl

/-- Receivers that are visited once, of which none changes the routes. -/
theorem foldlM_visited {σ ε : Type} {cycle : σ → NotifyCtx ε ρ → Option σ} {reduce : σ → ε → ε → Option ε} {n : Nat}
    {route : ε → Option ε} {ctx : NotifyCtx ε ρ} {P : σ → Prop} {rs : List (Receiver σ ε ρ)} {world world' : σ}
    (hroute : ∀ world i, P world → reduce world ctx.endpointVariant i = route i)
    (hleaf : ∀ r ∈ rs, ∀ world, (r.onReceive world ctx).2 = ([], ctx.buffer))
    (hkeep : ∀ r ∈ rs, ∀ world, P world → P (r.onReceive world ctx).1) (hworld : P world)
    (h : rs.foldlM (fun world receiver =>
      match reduce world ctx.endpointVariant receiver.endpointVariant with
      | some reduced => (notifyReceiver cycle n receiver ctx reduced world).map Loop.world
      | none => some world) world = some world') :
    world' = rs.foldl (fun world r => visited route r ctx world) world := by
  induction rs generalizing world with
  | nil => exact (Option.some_inj.mp h).symm
  | cons r rs ih =>
    rw [List.foldlM_cons, Option.bind_eq_bind, Option.bind_eq_some_iff] at h
    obtain ⟨world₁, hfirst, h⟩ := h
    rw [hroute _ _ hworld] at hfirst
    obtain rfl := visited_of_leaf r (hleaf r List.mem_cons_self world) hfirst
    have hworld₁ : P (visited route r ctx world) := by
      unfold visited
      split
      · exact hkeep r List.mem_cons_self world hworld
      · exact hworld
    exact ih (fun r hr => hleaf r (List.mem_cons_of_mem _ hr)) (fun r hr => hkeep r (List.mem_cons_of_mem _ hr))
      hworld₁ h

variable {kMaxPayloadLen : Nat} {pack : EndpointVariant → List UInt8 → ConstBuffer} {noRespond : ρ}
variable {rules : μ → RoutingRules} {P : μ → Prop} {n depth : Nat}

/-- The notification cycle of the bridge's own receivers. -/
def notify (lib : Mavlink π M) (mic : Aggregate M μ) (kMaxPayloadLen : Nat)
    (pack : EndpointVariant → List UInt8 → ConstBuffer) (noRespond : ρ) (rules : μ → RoutingRules) (visits depth : Nat) :
    World π M μ → NotifyCtx EndpointVariant ρ → Option (World π M μ) :=
  notifyAsImpl (receivers lib mic kMaxPayloadLen pack noRespond) (fun w => reduced (rules w.dispatcher.micAggregate))
    visits depth

/-- `w₁` is `w` behind the dispatcher, where there is a route to it. -/
def Dispatched (lib : Mavlink π M) (mic : Aggregate M μ)
    (cycle : World π M μ → NotifyCtx EndpointVariant ρ → Option (World π M μ)) (n : Nat)
    (route : EndpointVariant → Option EndpointVariant) (ctx : NotifyCtx EndpointVariant ρ) (w w₁ : World π M μ) : Prop :=
  match route (.named .mavlink) with
  | none => w₁ = w
  | some x => ∃ l, notifyReceiver cycle n (dispatcherReceiver lib mic) ctx x w = some l ∧ l.world = w₁

/-- The cycle of a sender whose routes are known: it comes to the dispatcher, and then to the
    hooks and the notifier. -/
theorem cycle_visits {w' : World π M μ}
    (h : notify lib mic kMaxPayloadLen pack noRespond rules n (depth + 1) w ctx = some w')
    (hroute : ∀ m, P m → ∀ i, reduced (rules m) ctx.endpointVariant i = route i)
    (hpack : route (.named .mavlinkIpPack) = none) (hw : P w.dispatcher.micAggregate)
    (hkeeps : ∀ w₁, Dispatched lib mic (notify lib mic kMaxPayloadLen pack noRespond rules n depth) n route ctx w w₁ →
      P w₁.dispatcher.micAggregate) :
    ∃ w₁, Dispatched lib mic (notify lib mic kMaxPayloadLen pack noRespond rules n depth) n route ctx w w₁ ∧
      w' = visited route udpHook ctx (visited route udpNotifier ctx (visited route uartHook ctx w₁)) := by
  rw [notify, notifyAsImpl, receivers, List.foldlM_cons, Option.bind_eq_bind, Option.bind_eq_some_iff] at h
  obtain ⟨w₁, hfirst, h⟩ := h
  rw [hroute _ hw, show (dispatcherReceiver lib mic : Receiver (World π M μ) EndpointVariant ρ).endpointVariant =
    .named .mavlink from rfl] at hfirst
  have hdispatched :
      Dispatched lib mic (notify lib mic kMaxPayloadLen pack noRespond rules n depth) n route ctx w w₁ := by
    unfold Dispatched
    cases hx : route (.named .mavlink) with
    | none =>
      rw [hx] at hfirst
      exact (Option.some_inj.mp hfirst).symm
    | some x =>
      rw [hx] at hfirst
      exact Option.map_eq_some_iff.mp hfirst
  have hw₁ := hkeeps w₁ hdispatched
  refine ⟨w₁, hdispatched, ?_⟩
  -- behind the dispatcher nothing changes the rules
  rw [List.foldlM_cons, Option.bind_eq_bind, Option.bind_eq_some_iff] at h
  obtain ⟨w₂, hnone, h⟩ := h
  rw [hroute _ hw₁, show (gsNetworkReceiver kMaxPayloadLen pack noRespond :
    Receiver (World π M μ) EndpointVariant ρ).endpointVariant = .named .mavlinkIpPack from rfl, hpack] at hnone
  obtain rfl := Option.some_inj.mp hnone
  refine foldlM_visited (P := fun w : World π M μ => P w.dispatcher.micAggregate) (fun w i hw => hroute _ hw i)
    (fun r hr w => ?_) (fun r hr w hw => ?_) hw₁ h
  · simp only [List.mem_cons, List.not_mem_nil, or_false] at hr
    rcases hr with rfl | rfl | rfl
    · rfl
    · rfl
    · exact (udpHook_leaf w ctx).1
  · simp only [List.mem_cons, List.not_mem_nil, or_false] at hr
    rcases hr with rfl | rfl | rfl
    · exact hw
    · exact hw
    · rw [(udpHook_leaf w ctx).2]
      exact hw

/-- What the sender reduces to for each of the receivers. -/
structure Routes (route : EndpointVariant → Option EndpointVariant) (mavlink uart udp hook : Option EndpointVariant) :
    Prop where
  mavlink : route (.named .mavlink) = mavlink
  packed : route (.named .mavlinkIpPack) = none
  uart : route (.uartEndpoint getMavlinkUartNum) = uart
  udp : route (.udpPort getMavlinkUdpPort) = udp
  hook : route (.udpHook getMavlinkUdpPort) = hook

theorem visited_none {r : Receiver (World π M μ) EndpointVariant ρ} (h : route r.endpointVariant = none) :
    visited route r ctx w = w := by
  rw [visited, h]
  rfl

theorem visited_some {r : Receiver (World π M μ) EndpointVariant ρ} {x : EndpointVariant}
    (h : route r.endpointVariant = some x) : visited route r ctx w = (r.onReceive w ctx).1 := by
  rw [visited, h]
  rfl

variable {uart udp : Bool}

theorem uart_routes (udp : Bool) : Routes (staticRule true udp (.uartEndpoint getMavlinkUartNum))
    (some (.named .uartMavlinkForwarded)) none none none := by
  constructor <;> cases udp <;> decide

theorem uart_routes_direct (udp : Bool) : Routes (staticRule false udp (.uartEndpoint getMavlinkUartNum))
    none none (some (.named .none)) none := by
  constructor <;> cases udp <;> decide

theorem uartMavlinkForwarded_routes (udp : Bool) : Routes (staticRule true udp (.named .uartMavlinkForwarded))
    none none (some (.named .none)) none := by
  constructor <;> cases udp <;> decide

theorem udp_routes (uart : Bool) : Routes (staticRule uart true (.udpPort getMavlinkUdpPort))
    (some (.named .udpMavlinkForwarded)) none none (some (.named .none)) := by
  constructor <;> cases uart <;> decide

theorem udp_routes_direct (uart : Bool) : Routes (staticRule uart false (.udpPort getMavlinkUdpPort))
    none (some (.named .none)) none (some (.named .none)) := by
  constructor <;> cases uart <;> decide

theorem udpMavlinkForwarded_routes (uart : Bool) : Routes (staticRule uart true (.named .udpMavlinkForwarded))
    none (some (.named .none)) none none := by
  constructor <;> cases uart <;> decide

/-- The senders without alternatives, none of which is an opened port. -/
theorem reduced_sender {r : RoutingRules} (h : Wired uart udp r) {o : EndpointVariant}
    (ho : o ∈ [EndpointVariant.uartEndpoint getMavlinkUartNum, .named .uartMavlinkForwarded, .named .udpMavlinkForwarded])
    (i : EndpointVariant) : reduced r o i = staticRule uart udp o i := by
  have hbare : ∀ o ∈ [EndpointVariant.uartEndpoint getMavlinkUartNum, .named .uartMavlinkForwarded,
      .named .udpMavlinkForwarded], o.asAlternative = [] := by decide
  refine reduced_bare h (hbare o ho) (Or.inr fun port heq => ?_)
  rcases port with ⟨_ | _, port⟩ <;> simp [heq, Key.origin] at ho

section
variable {w' : World π M μ} {toUart toUdp hook : Option EndpointVariant}

/-- The cycle of a sender that does not come to the dispatcher. -/
theorem direct_cycle (h : notify lib mic kMaxPayloadLen pack noRespond rules n (depth + 1) w ctx = some w')
    (hroutes : Routes route none toUart toUdp hook)
    (hroute : ∀ m, P m → ∀ i, reduced (rules m) ctx.endpointVariant i = route i) (hw : P w.dispatcher.micAggregate) :
    w' = visited route udpHook ctx (visited route udpNotifier ctx (visited route uartHook ctx w)) := by
  have hsame : ∀ w₁, Dispatched lib mic (notify lib mic kMaxPayloadLen pack noRespond rules n depth) n route ctx w w₁ →
      w₁ = w := by
    intro w₁ hw₁
    rw [Dispatched, hroutes.mavlink] at hw₁
    exact hw₁
  obtain ⟨w₁, hw₁, rfl⟩ := cycle_visits h hroute hroutes.packed hw fun w₁ hw₁ => by rw [hsame w₁ hw₁]; exact hw
  rw [hsame w₁ hw₁]

/-- The cycle of a sender that comes to the dispatcher, and to the hook of the clients at most. -/
theorem passing_cycle {x : EndpointVariant}
    (h : notify lib mic kMaxPayloadLen pack noRespond rules n (depth + 1) w ctx = some w')
    (hroutes : Routes route (some x) none none hook)
    (hroute : ∀ m, P m → ∀ i, reduced (rules m) ctx.endpointVariant i = route i)
    (hmic : ∀ state message, P state → P (mic state message).1) (hsend : Sends send)
    (hcycle : Delivers send x (notify lib mic kMaxPayloadLen pack noRespond rules n depth) P)
    (hw : P w.dispatcher.micAggregate) :
    ∃ w₁, P w₁.dispatcher.micAggregate ∧ Passed lib mic send w ctx.buffer.bytes w₁ ∧
      w' = visited route udpHook ctx w₁ := by
  have hpasses : ∀ w₁,
      Dispatched lib mic (notify lib mic kMaxPayloadLen pack noRespond rules n depth) n route ctx w w₁ →
      P w₁.dispatcher.micAggregate ∧ Passed lib mic send w ctx.buffer.bytes w₁ := by
    intro w₁ hw₁
    rw [Dispatched, hroutes.mavlink] at hw₁
    obtain ⟨l, hl, rfl⟩ := hw₁
    exact notifyReceiver_passed hl hsend hmic hcycle hw
  obtain ⟨w₁, hw₁, heq⟩ := cycle_visits h hroute hroutes.packed hw fun w₁ hw₁ => (hpasses w₁ hw₁).1
  rw [visited_none (r := uartHook) hroutes.uart, visited_none (r := udpNotifier) hroutes.udp] at heq
  exact ⟨w₁, (hpasses w₁ hw₁).1, (hpasses w₁ hw₁).2, heq⟩

end

/-- What the dispatcher forwards of the UART's bytes goes to the clients. -/
theorem uartMavlinkForwarded_delivers : Delivers Lines.sendClients (.named .uartMavlinkForwarded)
    (notify lib mic kMaxPayloadLen pack noRespond rules n (depth + 1))
    (fun m => Wired true udp (rules m)) := by
  intro w next w' hw hsender h
  obtain ⟨o, buffer, respondCb⟩ := next
  obtain rfl : o = .named .uartMavlinkForwarded := hsender
  have hroutes := uartMavlinkForwarded_routes udp
  have hroute : ∀ m, Wired true udp (rules m) → ∀ i, reduced (rules m) (.named .uartMavlinkForwarded) i =
      staticRule true udp (.named .uartMavlinkForwarded) i :=
    fun m hm i => reduced_sender hm (List.mem_cons_of_mem _ List.mem_cons_self) i
  have heq := direct_cycle (P := fun m => Wired true udp (rules m)) h hroutes hroute hw
  rw [visited_none (r := uartHook) hroutes.uart, visited_some (r := udpNotifier) hroutes.udp,
    visited_none (r := udpHook) hroutes.hook] at heq
  rw [heq]
  exact ⟨rfl, udpNotifier_lines w _⟩

/-- What the dispatcher forwards of a client's bytes goes to the UART. -/
theorem udpMavlinkForwarded_delivers : Delivers Lines.sendUart (.named .udpMavlinkForwarded)
    (notify lib mic kMaxPayloadLen pack noRespond rules n (depth + 1))
    (fun m => Wired uart true (rules m)) := by
  intro w next w' hw hsender h
  obtain ⟨o, buffer, respondCb⟩ := next
  obtain rfl : o = .named .udpMavlinkForwarded := hsender
  have hroutes := udpMavlinkForwarded_routes uart
  have hroute : ∀ m, Wired uart true (rules m) → ∀ i, reduced (rules m) (.named .udpMavlinkForwarded) i =
      staticRule uart true (.named .udpMavlinkForwarded) i :=
    fun m hm i => reduced_sender hm (List.mem_cons_of_mem _ (List.mem_cons_of_mem _ List.mem_cons_self)) i
  have heq := direct_cycle (P := fun m => Wired uart true (rules m)) h hroutes hroute hw
  rw [visited_some (r := uartHook) hroutes.uart, visited_none (r := udpNotifier) hroutes.udp,
    visited_none (r := udpHook) hroutes.hook] at heq
  rw [heq]
  exact ⟨rfl, fun _ => uartHook_lines w _⟩

/-! ## A buffer is received -/

structure Carried (lib : Mavlink π M) (mic : Aggregate M μ) (rules : μ → RoutingRules) (uart udp : Bool)
    (w : World π M μ) (e : Event) (w' : World π M μ) : Prop where
  wired : Wired uart udp (rules w'.dispatcher.micAggregate)
  state : w'.dispatcher.state = (feed (byteStep lib mic) w.dispatcher.state (e.processed uart udp)).1
  sent : (∀ h ∈ (feed (byteStep lib mic) w.dispatcher.state (e.processed uart udp)).2, h.ret = .ignored) →
    w.clientsUdp.Nodup → lines w' = (lines w).step e

variable {buffer : ConstBuffer} {respondCb : ρ} {w' : World π M μ}

theorem uart_carried
    (hmic : ∀ state message, Wired uart udp (rules state) → Wired uart udp (rules (mic state message).1))
    (hw : Wired uart udp (rules w.dispatcher.micAggregate))
    (h : notify lib mic kMaxPayloadLen pack noRespond rules n (depth + 2) w
      ⟨.uartEndpoint getMavlinkUartNum, buffer, respondCb⟩ = some w') :
    Carried lib mic rules uart udp w (.uart buffer) w' := by
  have hroute : ∀ m, Wired uart udp (rules m) → ∀ i, reduced (rules m) (.uartEndpoint getMavlinkUartNum) i =
    staticRule uart udp (.uartEndpoint getMavlinkUartNum) i := fun m hm i => reduced_sender hm List.mem_cons_self i
  cases uart with
  | false =>
    have hroutes := uart_routes_direct udp
    have heq := direct_cycle (P := fun m => Wired false udp (rules m)) h hroutes hroute hw
    rw [visited_none (r := uartHook) hroutes.uart, visited_some (r := udpNotifier) hroutes.udp,
      visited_none (r := udpHook) hroutes.hook] at heq
    rw [heq]
    exact ⟨hw, rfl, fun _ => udpNotifier_lines w _⟩
  | true =>
    have hroutes := uart_routes udp
    obtain ⟨w₁, hw₁, hpassed, heq⟩ := passing_cycle (P := fun m => Wired true udp (rules m)) h hroutes hroute hmic
      sends_clients uartMavlinkForwarded_delivers hw
    rw [visited_none (r := udpHook) hroutes.hook] at heq
    rw [heq]
    exact ⟨hw₁, hpassed.state, hpassed.sent⟩

theorem udp_carried {a : Endpoint}
    (hmic : ∀ state message, Wired uart udp (rules state) → Wired uart udp (rules (mic state message).1))
    (hw : Wired uart udp (rules w.dispatcher.micAggregate))
    (h : notify lib mic kMaxPayloadLen pack noRespond rules n (depth + 2) w
      ⟨.udpEndpoint a getMavlinkUdpPort, buffer, respondCb⟩ = some w') :
    Carried lib mic rules uart udp w (.udp a buffer) w' := by
  have hroute : ∀ m, Wired uart udp (rules m) → ∀ i, reduced (rules m) (.udpEndpoint a getMavlinkUdpPort) i =
    staticRule uart udp (.udpPort getMavlinkUdpPort) i := fun m hm i => reduced_udpEndpoint hm a
  cases udp with
  | false =>
    have hroutes := udp_routes_direct uart
    have heq := direct_cycle (P := fun m => Wired uart false (rules m)) h hroutes hroute hw
    rw [visited_some (r := uartHook) hroutes.uart, visited_none (r := udpNotifier) hroutes.udp,
      visited_some (r := udpHook) hroutes.hook] at heq
    rw [heq]
    refine ⟨?_, ?_, fun _ _ => ?_⟩
    · rw [(udpHook_leaf _ _).2]
      exact hw
    · rw [(udpHook_leaf _ _).2]
      rfl
    · rw [udpHook_lines, uartHook_lines]
      rfl
  | true =>
    have hroutes := udp_routes uart
    obtain ⟨w₁, hw₁, hpassed, heq⟩ := passing_cycle (P := fun m => Wired uart true (rules m)) h hroutes hroute hmic
      sends_uart udpMavlinkForwarded_delivers hw
    rw [visited_some (r := udpHook) hroutes.hook] at heq
    rw [heq]
    refine ⟨?_, ?_, fun hall hnodup => ?_⟩
    · rw [(udpHook_leaf _ _).2]
      exact hw₁
    · rw [(udpHook_leaf _ _).2]
      exact hpassed.state
    · rw [udpHook_lines, hpassed.sent hall hnodup]
      rfl

/-! ## Runs -/

/-- The buffers are received one after the other, with three cycles nested at most. -/
def receiveAll (lib : Mavlink π M) (mic : Aggregate M μ) (kMaxPayloadLen : Nat)
    (pack : EndpointVariant → List UInt8 → ConstBuffer) (noRespond : ρ) (rules : μ → RoutingRules) (respondCb : ρ)
    (events : List Event) (w : World π M μ) (visits : Nat) : Option (World π M μ) :=
  events.foldlM (fun w e =>
    notify lib mic kMaxPayloadLen pack noRespond rules visits 3 w ⟨e.sender, e.buffer, respondCb⟩) w

/-- The receptions end. -/
theorem receiveAll_ends (hlen : 16 < kMaxPayloadLen)
    (hmic : ∀ state message, ∃ changes, rules (mic state message).1 = applyAll (rules state) changes)
    (hw : Table uart udp (rules w.dispatcher.micAggregate)) (events : List Event) :
    ∃ w', Ends (receiveAll lib mic kMaxPayloadLen pack noRespond rules respondCb events w) w' := by
  have hbuffer : ∀ r ∈ receivers lib mic kMaxPayloadLen pack noRespond, Slices r ∨ Leaves r := receivers_buffer hlen
  have hlayered := layered uart udp (fun w : World π M μ => rules w.dispatcher.micAggregate) hbuffer
    (receivers_rules rules hmic)
  have hends : ∃ w', Table uart udp (rules w'.dispatcher.micAggregate) ∧
      Ends (receiveAll lib mic kMaxPayloadLen pack noRespond rules respondCb events w) w' := by
    refine foldlM_ends (fun visits w (e : Event) =>
      notify lib mic kMaxPayloadLen pack noRespond rules visits 3 w ⟨e.sender, e.buffer, respondCb⟩) events
      (fun e _ w hw => ?_) w hw
    have hdepth : rank e.sender < 3 := Nat.lt_succ_of_le (rank_le _)
    exact cycle_ends hlayered (fun _ _ _ => rank_lt) 3 w ⟨e.sender, e.buffer, respondCb⟩ hw trivial hdepth
  exact hends.imp fun _ h => h.2

theorem event_carried {e : Event}
    (h : notify lib mic kMaxPayloadLen pack noRespond rules n (depth + 2) w ⟨e.sender, e.buffer, respondCb⟩ = some w')
    (hmic : ∀ state message, Wired uart udp (rules state) → Wired uart udp (rules (mic state message).1))
    (hw : Wired uart udp (rules w.dispatcher.micAggregate)) : Carried lib mic rules uart udp w e w' := by
  cases e with
  | uart buffer => exact uart_carried hmic hw h
  | udp client buffer => exact udp_carried hmic hw h

/-- What the receptions do, both directions together. -/
theorem receiveAll_carried {events : List Event}
    (h : receiveAll lib mic kMaxPayloadLen pack noRespond rules respondCb events w n = some w')
    (hmic : ∀ state message, Wired uart udp (rules state) → Wired uart udp (rules (mic state message).1))
    (hw : Wired uart udp (rules w.dispatcher.micAggregate)) (hnodup : w.clientsUdp.Nodup)
    (hall : ∀ h ∈ (feed (byteStep lib mic) w.dispatcher.state (events.flatMap (Event.processed uart udp))).2,
      h.ret = .ignored) : lines w' = run Lines.step (lines w) events := by
  induction events generalizing w with
  | nil =>
    obtain rfl := Option.some_inj.mp h
    rfl
  | cons e es ih =>
    rw [receiveAll, List.foldlM_cons, Option.bind_eq_bind, Option.bind_eq_some_iff] at h
    obtain ⟨w₁, h₁, h⟩ := h
    have hcarried := event_carried h₁ hmic hw
    rw [List.flatMap_cons, feed_append, ← hcarried.state] at hall
    have hlines := hcarried.sent (fun x hx => hall x (List.mem_append_left _ hx)) hnodup
    have hnodup₁ : w₁.clientsUdp.Nodup := by
      have hstep := Lines.step_nodup (l := lines w) e hnodup
      rw [← hlines] at hstep
      exact hstep
    rw [ih h hcarried.wired hnodup₁ fun x hx => hall x (List.mem_append_right _ hx), run_cons, hlines]

/-- **Bridge.** Whatever has been received on either side, in whatever order and however it is
    cut into buffers: as long as the microservices take none of the messages the dispatcher
    finds in what it is given of both sides, the UART is sent exactly the bytes of the clients,
    and every client exactly the bytes of the UART, from its first datagram on. -/
theorem bridge_is_a_pair_of_lines {changes : List Change} (hlen : 16 < kMaxPayloadLen)
    (hmic : ∀ state message, ∃ changes, .opened (.udp, getMavlinkUdpPort) ∉ changes ∧
      rules (mic state message).1 = applyAll (rules state) changes)
    (hrules : rules w.dispatcher.micAggregate = applyAll (init uart udp) changes)
    (hport : .opened (.udp, getMavlinkUdpPort) ∉ changes) (hnodup : w.clientsUdp.Nodup) (events : List Event)
    (hall : ∀ h ∈ (feed (byteStep lib mic) w.dispatcher.state (events.flatMap (Event.processed uart udp))).2,
      h.ret = .ignored) :
    ∃ w', Ends (receiveAll lib mic kMaxPayloadLen pack noRespond rules respondCb events w) w' ∧
      (lines w').toUart = (lines w).toUart ++ events.flatMap Event.fromUdp ∧
      ∀ a, (lines w').toClient a = (lines w).toClient a ++
        (if a ∈ w.clientsUdp then events else events.dropWhile fun e => !e.isFrom a).flatMap Event.fromUart := by
  have hwired : Wired uart udp (rules w.dispatcher.micAggregate) := by
    rw [hrules]
    exact changes_wired (init_wired uart udp) hport
  have hkeeps : ∀ state message, Wired uart udp (rules state) → Wired uart udp (rules (mic state message).1) := by
    intro state message hstate
    obtain ⟨changes, hchanges, heq⟩ := hmic state message
    rw [heq]
    exact changes_wired hstate hchanges
  obtain ⟨w', hends⟩ := receiveAll_ends hlen (fun state message => (hmic state message).imp fun _ h => h.2) hwired.table
    events
  obtain ⟨n, hn⟩ := Filter.Eventually.exists hends
  have hlines := receiveAll_carried hn hkeeps hwired hnodup hall
  refine ⟨w', hends, ?_, fun a => ?_⟩
  · rw [hlines, Lines.run_toUart]
  · exact (congrArg (fun l => l.toClient a) hlines).trans (Lines.run_toClient (lines w) events a)

end

/-- Every byte 1 is a message. -/
def byteOne : Mavlink Unit UInt8 := ⟨fun _ b => ((), if b = 1 then some b else none), fun b => [b]⟩

/-- None of the messages is taken. -/
def ignores (r : RoutingRules) (_ : UInt8) : RoutingRules × Microservice.Ret × List UInt8 := (r, .ignored, [])

def listening : World Unit UInt8 RoutingRules :=
  { dispatcher := ⟨⟨(), []⟩, applyAll (init true true) [.opened (.tcp, 8080)], [], []⟩, popped := rfl, clientsUdp := [client] }

def newcomer : Endpoint := ⟨.v4 (Vector.replicate 4 20), 14550⟩

/-- A message is cut in two by the other direction, and a client comes to it late. -/
theorem a_client_that_comes_late :
    ∃ w', Ends (receiveAll byteOne ignores 255 (fun _ bytes => ⟨0, bytes⟩) () id ()
        [.uart ⟨0, [7, 1]⟩, .udp newcomer ⟨16, [2, 1, 3]⟩, .uart ⟨32, [1, 8]⟩] listening) w' ∧
      (lines w').toUart = [2, 1, 3] ∧ (lines w').toClient client = [7, 1, 1, 8] ∧
      (lines w').toClient newcomer = [1, 8] := by
  obtain ⟨w', hends, hUart, hClient⟩ := @bridge_is_a_pair_of_lines _ _ _ _ byteOne ignores listening 255
    (fun _ bytes => ⟨0, bytes⟩) () id true true () [.opened (.tcp, 8080)] (by decide)
    (fun r _ => ⟨[], List.not_mem_nil, rfl⟩) rfl (by decide) (List.nodup_singleton client)
    [.uart ⟨0, [7, 1]⟩, .udp newcomer ⟨16, [2, 1, 3]⟩, .uart ⟨32, [1, 8]⟩] (by decide)
  refine ⟨w', hends, hUart, ?_, ?_⟩
  · rw [hClient]
    decide
  · rw [hClient]
    decide

def opened : World Unit UInt8 RoutingRules :=
  { listening with
    dispatcher := ⟨⟨(), []⟩, applyAll (init true true) [.opened (.udp, getMavlinkUdpPort)], [], []⟩
    popped := rfl }

/-- What comes to an opened port is sent on, and packed and sent as well. -/
theorem an_opened_port_is_no_line :
    (receiveAll byteOne ignores 255 (fun _ bytes => ⟨0, bytes⟩) () id () [.udp client ⟨16, [2]⟩] opened 4).map
      World.sentUart = some [[2], [2]] := by
  decide +kernel

end

end Esp32Cam.Mav.Bridging
