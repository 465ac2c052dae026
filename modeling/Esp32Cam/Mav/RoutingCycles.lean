/-
  Esp32Cam.Mav.RoutingCycles — where the rules of the bridge lead.

  The rules are the static ones and, for every port the autopilot has opened, the one that
  has what is received there packed (`Table`); OPEN and CLOSE keep to that (`changes_table`),
  also in the middle of a cycle. Along these rules a sender comes down to a forwarded one,
  and from there to none: three cycles are nested at most. What has come from the UART does
  not get back to the hook of the UART (`uart_not_reached`), nor what has come from a UDP
  client to the notifier of the clients (`udp_not_reached`).

  `Registered` are the bridge's own receivers.
-/

import Esp32Cam.Bdg.NotificationCycles
import Esp32Cam.Mav.Dispatcher
import Esp32Cam.Mav.GsNetworkRoutes

namespace Esp32Cam.Mav.RoutingCycles

open Esp32Cam.Bdg Esp32Cam.Bdg.MavlinkRouting Esp32Cam.Mav.GsNetwork
open Esp32Cam.Ut.Cont (ConstBuffer)
open Esp32Cam.Asio (Endpoint)

/-! ## The rules there can be -/

inductive Change where
  | opened (port : Key)
  | closed (port : Key)
  deriving DecidableEq, Repr

def Change.apply (r : RoutingRules) : Change → RoutingRules
  | opened port => (r.addStatic port.origin (.named .mavlinkIpPack) (.named .mavlinkIpPackForwarded)).1
  | closed port => r.remove port.origin (.named .mavlinkIpPack)

def applyAll (r : RoutingRules) (changes : List Change) : RoutingRules := changes.foldl Change.apply r

/-- A static rule, or that of an opened port. -/
def CanRule (uart udp : Bool) (t : EndpointVariant × EndpointVariant × EndpointVariant) : Prop :=
  t ∈ kStaticRoutingRules uart udp ∨ ∃ port : Key, t = (port.origin, .named .mavlinkIpPack, .named .mavlinkIpPackForwarded)

structure Table (uart udp : Bool) (r : RoutingRules) : Prop where
  sorted : r.Sorted
  rules : ∀ t ∈ r.rulesOf, CanRule uart udp t

section
variable {uart udp : Bool} {r : RoutingRules}

theorem init_table (uart udp : Bool) : Table uart udp (init uart udp) :=
  ⟨init_sorted uart udp, fun _ ht => Or.inl (init_subset uart udp ht)⟩

theorem change_table (h : Table uart udp r) (c : Change) : Table uart udp (c.apply r) := by
  cases c with
  | opened port =>
    refine ⟨RoutingRules.addStatic_sorted h.sorted _, fun t ht => ?_⟩
    rcases RoutingRules.addStatic_subset _ ht with rfl | ht
    · exact Or.inr ⟨port, rfl⟩
    · exact h.rules t ht
  | closed port =>
    refine ⟨RoutingRules.remove_sorted h.sorted, fun t ht => ?_⟩
    have hkept : t ∈ { t ∈ r.rulesOf | (t.1, t.2.1) ≠ (port.origin, .named .mavlinkIpPack) } := by
      rw [← RoutingRules.remove_rulesOf h.sorted (origin_no_alternative port)]
      exact ht
    exact h.rules t hkept.1

theorem changes_table (h : Table uart udp r) (changes : List Change) : Table uart udp (applyAll r changes) := by
  induction changes generalizing r with
  | nil => exact h
  | cons c changes ih => exact ih (change_table h c)

/-- A request changes the rules by an OPEN, by a CLOSE, or not at all. -/
theorem carryOut_rules {cfg : Bool} {s : GsNetwork.State} {os : Sock.Os} {m : GsNetwork.Message} {d : Done}
    (h : carryOut cfg s os m = some (some d)) : ∃ changes, d.state.rules = applyAll s.rules changes := by
  unfold carryOut at h
  cases hm : m.command <;> rw [hm] at h <;> dsimp only at h
  · simp only [Option.map_eq_some_iff, Option.some_inj, exists_eq_right] at h
    rcases processConnect_cases h with ⟨-, api, hostPort, err, -, rfl⟩ | ⟨-, rfl⟩ <;> exact ⟨[], rfl⟩
  · simp only [Option.map_eq_some_iff, Option.some_inj, exists_eq_right] at h
    obtain ⟨api, err, -, rfl⟩ := processDisconnect_cases h
    exact ⟨[], rfl⟩
  · simp only [Option.map_eq_some_iff, Option.some_inj, exists_eq_right] at h
    obtain ⟨api, sent, rfl, -⟩ := processSend_cases h
    exact ⟨[], rfl⟩
  · simp only [Option.map_eq_some_iff, Option.some_inj, exists_eq_right] at h
    obtain ⟨api, errorCode, rfl, -⟩ := processOpen_cases h
    dsimp only [openRules]
    split
    · rw [origin_eq]
      exact ⟨[.opened _], rfl⟩
    · exact ⟨[], rfl⟩
  · simp only [Option.map_eq_some_iff, Option.some_inj, exists_eq_right] at h
    obtain ⟨api, errorCode, rfl, -⟩ := processClose_cases h
    dsimp only [closeRules]
    split
    · rw [origin_eq]
      exact ⟨[.closed _], rfl⟩
    · exact ⟨[], rfl⟩
  · obtain rfl := Option.some_inj.mp (Option.some_inj.mp h)
    exact ⟨[], rfl⟩
  · cases Option.some_inj.mp h

/-! ## Where they lead -/

def reduced (r : RoutingRules) (o i : EndpointVariant) : Option EndpointVariant :=
  let (found, x) := r.reduce o i
  if found then some x else none

/-- There can be a rule by which the receiver is notified of what the sender sends. -/
def Rule (uart udp : Bool) (o i x : EndpointVariant) : Prop := ∃ o' ∈ o :: o.asAlternative, CanRule uart udp (o', i, x)

theorem reduced_rule (h : Table uart udp r) {o i x : EndpointVariant} (hx : reduced r o i = some x) :
    Rule uart udp o i x := by
  rw [reduced, RoutingRules.reduce_eq] at hx
  have hfound : (r.lookup o i).or (o.asAlternative.findSome? fun alternative => r.lookup alternative i) = some x := by
    cases hlookup : (r.lookup o i).or (o.asAlternative.findSome? fun alternative => r.lookup alternative i) with
    | none => rw [hlookup] at hx; cases hx
    | some y => rw [hlookup] at hx; exact hx
  rcases Option.or_eq_some_iff.mp hfound with hdirect | ⟨-, halt⟩
  · exact ⟨o, List.mem_cons_self, h.rules _ ((RoutingRules.lookup_eq_some h.sorted).mp hdirect)⟩
  · obtain ⟨o', ho', hlookup⟩ := List.exists_of_findSome?_eq_some halt
    exact ⟨o', List.mem_cons_of_mem _ ho', h.rules _ ((RoutingRules.lookup_eq_some h.sorted).mp hlookup)⟩

def rank : EndpointVariant → Nat
  | .named .none => 0
  | .named _ => 1
  | _ => 2

theorem rank_of_alternative {o o' : EndpointVariant} (h : o' ∈ o :: o.asAlternative) : rank o' ≤ rank o := by
  rcases List.mem_cons.mp h with rfl | h
  · exact Nat.le_refl _
  · cases o with
    | tcpEndpoint a port => rcases List.mem_pair.mp h with rfl | rfl <;> exact Nat.le_refl _
    | udpEndpoint a port => rcases List.mem_pair.mp h with rfl | rfl <;> exact Nat.le_refl _
    | _ => cases h

theorem rank_static : ∀ uart udp, ∀ t ∈ kStaticRoutingRules uart udp, rank t.2.2 < rank t.1 := by decide

theorem rank_lt {o i x : EndpointVariant} (h : Rule uart udp o i x) : rank x < rank o := by
  obtain ⟨o', ho', hrule⟩ := h
  have hlower : rank x < rank o' := by
    rcases hrule with hstatic | ⟨⟨_ | _, port⟩, heq⟩
    · exact rank_static uart udp _ hstatic
    · cases heq
      exact Nat.one_lt_two
    · cases heq
      exact Nat.one_lt_two
  exact Nat.lt_of_lt_of_le hlower (rank_of_alternative ho')

/-- The senders are shut: no rule leads out of them, and none to the receiver `target`. -/
structure Shut (senders : List EndpointVariant) (target : EndpointVariant) : Prop where
  static : ∀ uart udp, ∀ t ∈ kStaticRoutingRules uart udp, t.1 ∈ senders → t.2.2 ∈ senders ∧ t.2.1 ≠ target
  packed : ∀ port : Key, port.origin ∈ senders → .named .mavlinkIpPackForwarded ∈ senders
  target : target ≠ .named .mavlinkIpPack
  bare : ∀ o ∈ senders, o.asAlternative = []

/-- Whatever rule there is for the sender is a rule of one of `senders`. -/
def Within (uart udp : Bool) (senders : List EndpointVariant) (o : EndpointVariant) : Prop :=
  ∀ o' ∈ o :: o.asAlternative, ∀ i x, CanRule uart udp (o', i, x) → o' ∈ senders

variable {senders : List EndpointVariant} {target : EndpointVariant} {o i x : EndpointVariant}

theorem Shut.within (h : Shut senders target) (ho : o ∈ senders) : Within uart udp senders o := by
  intro o' ho' i x hrule
  rw [h.bare o ho, List.mem_singleton] at ho'
  rw [ho']
  exact ho

theorem Shut.rule (h : Shut senders target) (ho : Within uart udp senders o) (hrule : Rule uart udp o i x) :
    Within uart udp senders x ∧ i ≠ target := by
  obtain ⟨o', ho', hrule⟩ := hrule
  have hsender := ho o' ho' i x hrule
  rcases hrule with hstatic | ⟨port, heq⟩
  · obtain ⟨hx, hi⟩ := h.static uart udp _ hstatic hsender
    exact ⟨h.within hx, hi⟩
  · cases heq
    exact ⟨h.within (h.packed port hsender), h.target.symm⟩

theorem Shut.not_reached (h : Shut senders target) (ho : Within uart udp senders o) {o' : EndpointVariant}
    (hpath : Path (Rule uart udp) o o') : ¬ ∃ x, Rule uart udp o' target x := by
  have hwithin : Within uart udp senders o' := by
    induction hpath with
    | refl => exact ho
    | tail _ hstep ih =>
      obtain ⟨i, hrule⟩ := hstep
      exact (h.rule ih hrule).1
  intro h
  rcases h with ⟨x, hrule⟩
  exact (h.rule hwithin hrule).2 rfl

/-- From the UART to the clients, or to the dispatcher and from there to the clients. -/
theorem uart_shut : Shut [.uartEndpoint getMavlinkUartNum, .named .uartMavlinkForwarded, .named .none]
    (.uartEndpoint getMavlinkUartNum) where
  static := by decide
  packed port hport := by rcases port with ⟨_ | _, port⟩ <;> simp [Key.origin] at hport
  target := nofun
  bare := by decide

/-- From a client to the UART, directly or through the dispatcher or packed. -/
theorem udp_shut : Shut [.udpPort getMavlinkUdpPort, .named .udpMavlinkForwarded, .named .mavlinkIpPackForwarded,
    .named .none] (.udpPort getMavlinkUdpPort) where
  static := by decide
  packed _ _ := by decide
  target := nofun
  bare := by decide

/-- A UDP client has the rules of the port it sends to. -/
theorem udpEndpoint_within (a : Endpoint) : Within uart udp [.udpPort getMavlinkUdpPort, .named .udpMavlinkForwarded,
    .named .mavlinkIpPackForwarded, .named .none] (.udpEndpoint a getMavlinkUdpPort) := by
  intro o' ho' i x hrule
  have hport : ∀ o', (∀ n, o' ≠ .named n) → (∀ n, o' ≠ .uartEndpoint n) → (∀ port : Key, o' ≠ port.origin) →
      ¬ CanRule uart udp (o', i, x) := by
    intro o' hnamed huart horigin h
    rcases h with hstatic | ⟨port, heq⟩
    · have hsender : ∀ uart udp, ∀ t ∈ kStaticRoutingRules uart udp, t.1 ∈ [EndpointVariant.named .mavlink,
          .named .uartMavlinkForwarded, .named .udpMavlinkForwarded, .named .mavlinkIpPackForwarded,
          .uartEndpoint getMavlinkUartNum, Key.origin (.udp, getMavlinkUdpPort)] := by decide
      have := hsender uart udp _ hstatic
      simp [hnamed, huart, horigin] at this
    · exact horigin port (Prod.mk.inj heq).1
  simp only [EndpointVariant.asAlternative, List.mem_cons, List.not_mem_nil, or_false] at ho'
  rcases ho' with rfl | rfl | rfl
  · exact absurd hrule (hport _ (fun _ h => by cases h) (fun _ h => by cases h) (by rintro ⟨_ | _, port⟩ h <;> cases h))
  · exact absurd hrule (hport _ (fun _ h => by cases h) (fun _ h => by cases h) (by rintro ⟨_ | _, port⟩ h <;> cases h))
  · exact List.mem_cons_self

end

/-! ## The bridge's own receivers -/

section
variable {π M μ ρ : Type}

structure World (π M μ : Type) where
  dispatcher : Dispatcher π M μ
  popped : dispatcher.unmarshalling.queue = []
  clientsUdp : List Endpoint := []
  sentUart : List (List UInt8) := []
  sentUdp : List (Endpoint × List UInt8) := []

def dispatcherReceiver (lib : Mavlink π M) (mic : Aggregate M μ) : Receiver (World π M μ) EndpointVariant ρ where
  endpointVariant := .named .mavlink
  onReceive w ctx :=
    let ret := w.dispatcher.onReceive lib mic ctx
    ({ w with dispatcher := ret.1, popped := (onReceive_eq lib mic w.popped ctx).2.1 }, ret.2.1, ret.2.2.2)

/-- The bytes of the IP address in front of the payload: that of a UDP client is not packed. -/
def addressLength : EndpointVariant → Nat
  | .tcpEndpoint ⟨.v6 .., _⟩ _ => 16
  | _ => 4

/-- A piece of the buffer is packed into a message; `noRespond` is the callback that does nothing. -/
def gsNetworkReceiver (kMaxPayloadLen : Nat) (pack : EndpointVariant → List UInt8 → ConstBuffer) (noRespond : ρ) :
    Receiver (World π M μ) EndpointVariant ρ where
  endpointVariant := .named .mavlinkIpPack
  onReceive w ctx :=
    let nProcessed := min (kMaxPayloadLen - addressLength ctx.endpointVariant) ctx.buffer.size
    (w, [⟨pack ctx.endpointVariant (ctx.buffer.bytes.take nProcessed), noRespond⟩], ctx.buffer.slice nProcessed)

def uartHook : Receiver (World π M μ) EndpointVariant ρ where
  endpointVariant := .uartEndpoint getMavlinkUartNum
  onReceive w ctx := ({ w with sentUart := w.sentUart ++ [ctx.buffer.bytes] }, [], ctx.buffer)

/-- A sender that is not among the clients yet becomes one. -/
def udpHook : Receiver (World π M μ) EndpointVariant ρ where
  endpointVariant := .udpHook getMavlinkUdpPort
  onReceive w ctx :=
    match ctx.endpointVariant with
    | .udpEndpoint endpoint port =>
      if port = getMavlinkUdpPort ∧ endpoint ∉ w.clientsUdp then
        ({ w with clientsUdp := w.clientsUdp ++ [endpoint] }, [], ctx.buffer)
      else (w, [], ctx.buffer)
    | _ => (w, [], ctx.buffer)

def udpNotifier : Receiver (World π M μ) EndpointVariant ρ where
  endpointVariant := .udpPort getMavlinkUdpPort
  onReceive w ctx :=
    ({ w with sentUdp := w.sentUdp ++ w.clientsUdp.map fun endpoint => (endpoint, ctx.buffer.bytes) }, [], ctx.buffer)

/-- The bridge's receivers, in the order of the registry. -/
def receivers (lib : Mavlink π M) (mic : Aggregate M μ) (kMaxPayloadLen : Nat)
    (pack : EndpointVariant → List UInt8 → ConstBuffer) (noRespond : ρ) : List (Receiver (World π M μ) EndpointVariant ρ) :=
  [dispatcherReceiver lib mic, gsNetworkReceiver kMaxPayloadLen pack noRespond, uartHook, udpNotifier, udpHook]

variable {lib : Mavlink π M} {mic : Aggregate M μ} {kMaxPayloadLen : Nat}
variable {pack : EndpointVariant → List UInt8 → ConstBuffer} {noRespond : ρ}

theorem addressLength_le (o : EndpointVariant) : addressLength o ≤ 16 := by
  unfold addressLength
  split <;> omega

theorem receivers_buffer (hlen : 16 < kMaxPayloadLen) :
    ∀ r ∈ receivers lib mic kMaxPayloadLen pack noRespond, Slices r ∨ Leaves r := by
  intro r hr
  simp only [receivers, List.mem_cons, List.not_mem_nil, or_false] at hr
  rcases hr with rfl | rfl | rfl | rfl | rfl
  · refine Or.inl fun w ctx => ?_
    have h := onReceive_eq lib mic w.popped ctx
    refine ⟨(w.dispatcher.reads lib mic ctx.buffer).1, Lib.readOne_le _ _ _, fun hpos => Lib.readOne_pos _ _ ?_, h.2.2.2.2.2⟩
    exact List.ne_nil_of_length_pos hpos
  · refine Or.inl fun w ctx => ?_
    have haddress := addressLength_le ctx.endpointVariant
    exact ⟨min (kMaxPayloadLen - addressLength ctx.endpointVariant) ctx.buffer.size, by omega, by omega, rfl⟩
  · exact Or.inr fun _ _ => rfl
  · exact Or.inr fun _ _ => rfl
  · refine Or.inr fun w ctx => ?_
    dsimp only [udpHook]
    split
    · split <;> rfl
    · rfl

/-- Of the receivers only the dispatcher changes the rules, as its microservices do. -/
theorem receivers_rules (rules : μ → RoutingRules)
    (hmic : ∀ state message, ∃ changes, rules (mic state message).1 = applyAll (rules state) changes) :
    ∀ r ∈ receivers lib mic kMaxPayloadLen pack noRespond, ∀ w ctx,
      ∃ changes, rules (r.onReceive w ctx).1.dispatcher.micAggregate = applyAll (rules w.dispatcher.micAggregate) changes := by
  intro r hr w ctx
  simp only [receivers, List.mem_cons, List.not_mem_nil, or_false] at hr
  rcases hr with rfl | rfl | rfl | rfl | rfl
  · have h := onReceive_eq lib mic w.popped ctx
    have hstate : (w.dispatcher.onReceive lib mic ctx).1.micAggregate =
        (w.dispatcher.reads lib mic ctx.buffer).2.1.2 := congrArg Prod.snd h.1
    show ∃ changes, rules (w.dispatcher.onReceive lib mic ctx).1.micAggregate = _
    rw [hstate, Dispatcher.reads, readOne_byteStep]
    dsimp only
    cases (Lib.readOne lib.frameCharBuffer w.dispatcher.state.1 ctx.buffer.bytes).2.2 with
    | none => exact ⟨[], rfl⟩
    | some message => exact hmic _ _
  · exact ⟨[], rfl⟩
  · exact ⟨[], rfl⟩
  · exact ⟨[], rfl⟩
  · refine ⟨[], ?_⟩
    dsimp only [udpHook]
    split
    · split <;> rfl
    · rfl

end

/-! ## No loop, no echo -/

/-- The table is what the cycles rest on, whatever ports the receivers open and close. -/
theorem layered {σ ρ : Type} (uart udp : Bool) (rules : σ → RoutingRules)
    {instances : List (Receiver σ EndpointVariant ρ)} (hbuffer : ∀ r ∈ instances, Slices r ∨ Leaves r)
    (hrules : ∀ r ∈ instances, ∀ world ctx, ∃ changes, rules (r.onReceive world ctx).1 = applyAll (rules world) changes) :
    Layered instances (fun s => reduced (rules s)) (Rule uart udp) (fun _ => True) (fun s => Table uart udp (rules s)) where
  buffer := hbuffer
  rule := fun _ _ _ _ htable hreduced => reduced_rule htable hreduced
  next := fun _ _ _ _ _ => trivial
  receive := fun r hr w ctx _ htable _ _ => by
    obtain ⟨changes, hchanges⟩ := hrules r hr w ctx
    rw [hchanges]
    exact changes_table htable changes

theorem rank_le (o : EndpointVariant) : rank o ≤ 2 := by
  unfold rank
  split <;> omega

/-- **Routing cycles.** Whatever ports have been opened and closed, and whatever ports the
    receivers open and close on the way: the notification cycle of any sender ends, with
    three cycles nested at most; what has come from the UART is not delivered to the hook of
    the UART, nor what has come from a UDP client to the notifier of the clients. -/
theorem cycles_end_without_echo {σ ρ : Type} (uart udp : Bool) (rules : σ → RoutingRules)
    {instances : List (Receiver σ EndpointVariant ρ)} (hbuffer : ∀ r ∈ instances, Slices r ∨ Leaves r)
    (hrules : ∀ r ∈ instances, ∀ world ctx, ∃ changes, rules (r.onReceive world ctx).1 = applyAll (rules world) changes)
    {world : σ} (changes : List Change) (hworld : rules world = applyAll (init uart udp) changes)
    (ctx : NotifyCtx EndpointVariant ρ) :
    ∃ world' log enough,
      (∀ visits ≥ enough, notifyAsImpl instances (fun s => reduced (rules s)) visits 3 world ctx = some world' ∧
        notifyAsImpl (instances.map Receiver.logged) (fun s => reduced (rules s.1)) visits 3 (world, []) ctx =
          some (world', log)) ∧
      (ctx.endpointVariant = .uartEndpoint getMavlinkUartNum →
        ∀ d ∈ log, d.receiver ≠ .uartEndpoint getMavlinkUartNum) ∧
      (∀ a, ctx.endpointVariant = .udpEndpoint a getMavlinkUdpPort →
        ∀ d ∈ log, d.receiver ≠ .udpPort getMavlinkUdpPort) := by
  have hlayered := layered uart udp rules hbuffer hrules
  have htable : Table uart udp (rules world) := by
    rw [hworld]
    exact changes_table (init_table uart udp) changes
  have hdepth : rank ctx.endpointVariant < 3 := Nat.lt_succ_of_le (rank_le ctx.endpointVariant)
  obtain ⟨world', log, enough, -, hlog, hends⟩ := logged_cycle_ends hlayered (fun _ _ _ => rank_lt) htable hdepth
  refine ⟨world', log, enough, fun visits hvisits => ⟨?_, hends visits hvisits⟩, ?_, ?_⟩
  · have hbare := notifyAsImpl_logged instances (fun s => reduced (rules s)) visits 3 (world, []) ctx
    rw [hends visits hvisits] at hbare
    exact hbare.symm
  · intro huart d hd htarget
    obtain ⟨hpath, x, hrule⟩ := hlog d hd
    rw [huart] at hpath
    rw [htarget] at hrule
    exact uart_shut.not_reached (uart_shut.within List.mem_cons_self) hpath ⟨x, hrule⟩
  · intro a hudp d hd htarget
    obtain ⟨hpath, x, hrule⟩ := hlog d hd
    rw [hudp] at hpath
    rw [htarget] at hrule
    exact udp_shut.not_reached (udpEndpoint_within a) hpath ⟨x, hrule⟩

/-- The service of the sockets as the only microservice. -/
def gsNetwork (closeCliDisconnect : Bool) (os : Sock.Os) : Aggregate GsNetwork.Message GsNetwork.State := fun s m =>
  match GsNetwork.process closeCliDisconnect s os m with
  | some (ret, some done) => (done.state, ret, [done.message])
  | some (ret, none) => (s, ret, [])
  -- one that throws is taken for one that is left alone
  | none => (s, .ignored, [])

theorem gsNetwork_rules (closeCliDisconnect : Bool) (os : Sock.Os) (s : GsNetwork.State) (m : GsNetwork.Message) :
    ∃ changes, (gsNetwork closeCliDisconnect os s m).1.rules = applyAll s.rules changes := by
  unfold gsNetwork
  split
  · next ret done hprocess =>
    unfold GsNetwork.process at hprocess
    dsimp only at hprocess
    have hcarry : carryOut closeCliDisconnect s os m = some (some done) := by
      split at hprocess
      · obtain ⟨r, hr, heq⟩ := Option.map_eq_some_iff.mp hprocess
        cases r with
        | none => cases heq
        | some done' =>
          cases heq
          exact hr
      · obtain ⟨r, hr, heq⟩ := Option.map_eq_some_iff.mp hprocess
        cases r with
        | none => cases heq
        | some done' =>
          cases heq
          exact hr
      · cases hprocess
    exact carryOut_rules hcarry
  · exact ⟨[], rfl⟩
  · exact ⟨[], rfl⟩

/-- The port the clients send to is to be opened. -/
def openClientsPort : GsNetwork.Message :=
  { hostPort := getMavlinkUdpPort, remotePort := 0, command := .open_, transport := .udp4 }

/-- Every byte 1 is this message. -/
def openOnOne : Mavlink Unit GsNetwork.Message := ⟨fun _ b => ((), if b = 1 then some openClientsPort else none), fun _ => [1]⟩

def client : Endpoint := ⟨.v4 (Vector.replicate 4 10), 14550⟩

def started : World Unit GsNetwork.Message GsNetwork.State :=
  { dispatcher := ⟨⟨(), []⟩, ⟨{}, applyAll (init true true) [.opened (.tcp, 8080)]⟩, [], []⟩, popped := rfl,
    clientsUdp := [client] }

/-- A client sends three bytes, and the second opens the port they have come from. -/
theorem a_port_is_opened_on_the_way :
    ∃ world' log enough,
      (∀ visits ≥ enough,
        notifyAsImpl (receivers openOnOne (gsNetwork false {}) 255 (fun _ bytes => ⟨0, bytes⟩) ())
          (fun w => reduced w.dispatcher.micAggregate.rules) visits 3 started
          ⟨.udpEndpoint client getMavlinkUdpPort, ⟨16, [2, 1, 3]⟩, ()⟩ = some world' ∧
        notifyAsImpl ((receivers openOnOne (gsNetwork false {}) 255 (fun _ bytes => ⟨0, bytes⟩) ()).map Receiver.logged)
          (fun s => reduced s.1.dispatcher.micAggregate.rules) visits 3 (started, [])
          ⟨.udpEndpoint client getMavlinkUdpPort, ⟨16, [2, 1, 3]⟩, ()⟩ = some (world', log)) ∧
      (EndpointVariant.udpEndpoint client getMavlinkUdpPort = .uartEndpoint getMavlinkUartNum →
        ∀ d ∈ log, d.receiver ≠ .uartEndpoint getMavlinkUartNum) ∧
      (∀ a, EndpointVariant.udpEndpoint client getMavlinkUdpPort = .udpEndpoint a getMavlinkUdpPort →
        ∀ d ∈ log, d.receiver ≠ .udpPort getMavlinkUdpPort) :=
  cycles_end_without_echo true true
    (fun w : World Unit GsNetwork.Message GsNetwork.State => w.dispatcher.micAggregate.rules)
    (receivers_buffer (by decide)) (receivers_rules GsNetwork.State.rules (gsNetwork_rules false {}))
    [.opened (.tcp, 8080)] rfl ⟨.udpEndpoint client getMavlinkUdpPort, ⟨16, [2, 1, 3]⟩, ()⟩

end Esp32Cam.Mav.RoutingCycles
