/-
  Esp32Cam.Mav.GsNetworkReceive — what is received on the autopilot's ports, packed and forwarded.

  A buffer that a port with a rule for packing receives goes to `onReceive`: a piece of it
  is packed into a PROCESS_RECEIVED message, the message is forwarded, and the receiver is
  visited again with what is left. The visits come to an end, the pieces make the buffer,
  and every message fits the response buffer it is written to.

  The messages do not say where the buffer has come from. `onReceive` looks for a TCP
  endpoint only, so that a UDP client is the default endpoint, and what is packed is UDP
  over IPv4 in any case. `received_iff`: the messages name their sender for the one sender
  that is the default endpoint, and for no other.

  `Wire` is what the generated code of the message has.
-/

import Mathlib.Data.List.DropRight
import Esp32Cam.Mav.GsNetworkPayload
import Esp32Cam.Mav.RoutingCycles

namespace Esp32Cam.Mav.GsNetwork

open Esp32Cam.Lib
open Esp32Cam.Asio (Address Endpoint)
open Esp32Cam.Bdg Esp32Cam.Bdg.MavlinkRouting
open Esp32Cam.Mav.RoutingCycles (World Change applyAll Table rank reduced dispatcherReceiver gsNetworkReceiver uartHook
  udpNotifier udpHook)
open Esp32Cam.Ut.Cont (ConstBuffer)

/-! ## The message on the wire -/

def kMaxPayloadLength : Nat := 255
def kMaxMavlinkMessageLength : Nat := 280

/-- The serialization of the message, of which `payload` is the last field. A message of the second version of
    the protocol is sent without the zeros at the end of it, with as much around it as there is room for beside
    the longest payload. -/
structure Wire where
  kMaxPayloadLen : Nat
  sizeofFields : Nat
  sizeofMessage : Nat
  fields : GsNetwork.Message → List UInt8
  toSendBuffer : List UInt8 → List UInt8
  addressed : 16 < kMaxPayloadLen
  fits : sizeofFields + kMaxPayloadLen ≤ kMaxPayloadLength
  length_fields : ∀ m, (fields m).length = sizeofFields
  fields_pos : 0 < sizeofFields
  trimmed : ∀ bytes, (toSendBuffer bytes).length ≤
    kMaxMavlinkMessageLength - kMaxPayloadLength + max 1 (bytes.rdropWhile (· == 0)).length
  message : kMaxMavlinkMessageLength ≤ sizeofMessage

namespace Wire

/-- `Globals::getMaxMessageLength`, for the message. -/
def getMaxMessageLength (w : Wire) : Nat := kMaxMavlinkMessageLength - kMaxPayloadLength + (w.sizeofFields + w.kMaxPayloadLen)

def mavGsNetworkGetMaxMessageLength (w : Wire) (aHintPayloadLength : Nat) : Nat :=
  w.getMaxMessageLength - w.kMaxPayloadLen + aHintPayloadLength

def push (w : Wire) (m : GsNetwork.Message) : List UInt8 := w.toSendBuffer (w.fields m ++ m.payload)

theorem rdropWhile_zeros {xs zs : List UInt8} (h : ∀ b ∈ zs, b = 0) :
    ((xs ++ zs).rdropWhile (· == 0)).length ≤ xs.length := by
  have hzeros : ∀ b ∈ zs.reverse, (b == (0 : UInt8)) = true := by
    intro b hb
    rw [h b (List.mem_reverse.mp hb)]
    rfl
  have hdrop : (xs ++ zs).rdropWhile (· == 0) = (xs.reverse.dropWhile (· == 0)).reverse := by
    rw [List.rdropWhile, List.reverse_append, List.dropWhile_append_of_pos hzeros]
  rw [hdrop, List.length_reverse]
  exact (List.dropWhile_sublist _).length_le.trans_eq List.length_reverse

/-- The message is no longer than the buffer it is said to be pushed into, nor is that than the response buffer. -/
structure Fits (w : Wire) (m : GsNetwork.Message) : Prop where
  pushed : (w.push m).length ≤ w.mavGsNetworkGetMaxMessageLength m.payloadLen.toNat
  response : w.mavGsNetworkGetMaxMessageLength m.payloadLen.toNat ≤ w.sizeofMessage

theorem packed_fits (w : Wire) {remote : Endpoint} {localPort : UInt16} {buffer : List UInt8} {packed : GsNetwork.Message × Nat}
    (h : Packed w.kMaxPayloadLen remote localPort buffer packed) : w.Fits packed.1 := by
  have haddress := remote.address.length_toBytes_le
  have hlength := h.payloadLen
  have hcount : packed.2 ≤ w.kMaxPayloadLen - remote.address.toBytes.length := h.count.trans_le (Nat.min_le_left _ _)
  have haddressed := w.addressed
  have hfits := w.fits
  have hpos := w.fields_pos
  have hmessage := w.message
  have hsplit : w.fields packed.1 ++ packed.1.payload =
      (w.fields packed.1 ++ packed.1.payload.take packed.1.payloadLen.toNat) ++
        packed.1.payload.drop packed.1.payloadLen.toNat := by
    rw [List.append_assoc, List.take_append_drop]
  have hsent : ((w.fields packed.1 ++ packed.1.payload).rdropWhile (· == 0)).length ≤
      w.sizeofFields + packed.1.payloadLen.toNat := by
    rw [hsplit]
    refine Nat.le_trans (rdropWhile_zeros h.rest) ?_
    rw [List.length_append, w.length_fields, List.length_take]
    omega
  have htrimmed := w.trimmed (w.fields packed.1 ++ packed.1.payload)
  constructor
  · unfold push mavGsNetworkGetMaxMessageLength getMaxMessageLength
    omega
  · unfold mavGsNetworkGetMaxMessageLength getMaxMessageLength
    unfold kMaxMavlinkMessageLength kMaxPayloadLength at *
    omega

end Wire

/-! ## The receiver -/

/-- The sender and the local port, as they are looked for. -/
def tcpSender : EndpointVariant → Endpoint × UInt16
  | .tcpEndpoint aEndpoint aPort => (aEndpoint, aPort)
  | _ => (⟨.v4 (Vector.replicate 4 0), 0⟩, 0)

/-- The message that a visit with the buffer packs, and how much of the buffer it takes. -/
def Wire.packedFrom (w : Wire) (origin : EndpointVariant) (buffer : List UInt8) : GsNetwork.Message × Nat :=
  initMavlinkMavGsNetwork w.kMaxPayloadLen .tcp received (tcpSender origin).1 (tcpSender origin).2 buffer

section
variable {π M μ ρ : Type}

/-- The response buffer is at `resp`; `noRespond` is the callback that does nothing. -/
def onReceive (w : Wire) (resp : Nat) (noRespond : ρ) : Receiver (World π M μ) EndpointVariant ρ where
  endpointVariant := .named .mavlinkIpPack
  onReceive world ctx :=
    let (mavlinkMavGsNetwork, nProcessed) := w.packedFrom ctx.endpointVariant ctx.buffer.bytes
    (world, [⟨⟨resp, w.push mavlinkMavGsNetwork⟩, noRespond⟩], ctx.buffer.slice nProcessed)

/-- The bridge's receivers, in the order of the registry. -/
def bridge (lib : Mavlink π M) (mic : Aggregate M μ) (w : Wire) (resp : Nat) (noRespond : ρ) :
    List (Receiver (World π M μ) EndpointVariant ρ) :=
  [dispatcherReceiver lib mic, onReceive w resp noRespond, uartHook, udpNotifier, udpHook]

variable {lib : Mavlink π M} {mic : Aggregate M μ} {w : Wire} {resp : Nat} {noRespond : ρ}

theorem Wire.payload_le (w : Wire) : w.kMaxPayloadLen ≤ 255 := Nat.le_trans (Nat.le_add_left _ _) w.fits

theorem Wire.packedFrom_packed (w : Wire) (origin : EndpointVariant) (buffer : List UInt8) :
    Packed w.kMaxPayloadLen (tcpSender origin).1 (tcpSender origin).2 buffer (w.packedFrom origin buffer) :=
  init_packed w.addressed w.payload_le

theorem addressLength_eq (origin : EndpointVariant) :
    RoutingCycles.addressLength origin = (tcpSender origin).1.address.toBytes.length := by
  cases origin with
  | tcpEndpoint a port =>
    obtain ⟨bytes | ⟨bytes, scopeId⟩, _⟩ := a
    · exact bytes.length_toList.symm
    · exact bytes.length_toList.symm
  | _ => rfl

/-- What the receiver forwards of a buffer is what it packs of the piece it takes. -/
theorem onReceive_eq (w : Wire) (resp : Nat) (noRespond : ρ) : (onReceive w resp noRespond : Receiver (World π M μ) _ _) =
    gsNetworkReceiver w.kMaxPayloadLen (fun origin piece => ⟨resp, w.push (w.packedFrom origin piece).1⟩) noRespond := by
  have hvisit : ∀ world ctx, (onReceive w resp noRespond : Receiver (World π M μ) _ _).onReceive world ctx =
      (gsNetworkReceiver w.kMaxPayloadLen (fun origin piece => ⟨resp, w.push (w.packedFrom origin piece).1⟩)
        noRespond).onReceive world ctx := by
    intro world ctx
    have hcount : min (w.kMaxPayloadLen - RoutingCycles.addressLength ctx.endpointVariant) ctx.buffer.size =
        room w.kMaxPayloadLen (tcpSender ctx.endpointVariant).1 ctx.buffer.bytes := by
      rw [addressLength_eq]
      rfl
    have hpiece : w.packedFrom ctx.endpointVariant
        (ctx.buffer.bytes.take (room w.kMaxPayloadLen (tcpSender ctx.endpointVariant).1 ctx.buffer.bytes)) =
        w.packedFrom ctx.endpointVariant ctx.buffer.bytes := init_take w.addressed w.payload_le
    have htaken := (w.packedFrom_packed ctx.endpointVariant ctx.buffer.bytes).count
    unfold onReceive gsNetworkReceiver
    dsimp only
    rw [hcount, hpiece, htaken]
  exact congrArg (Receiver.mk _) (funext fun world => funext fun ctx => hvisit world ctx)

theorem bridge_eq (lib : Mavlink π M) (mic : Aggregate M μ) (w : Wire) (resp : Nat) (noRespond : ρ) :
    bridge lib mic w resp noRespond = RoutingCycles.receivers lib mic w.kMaxPayloadLen
      (fun origin piece => ⟨resp, w.push (w.packedFrom origin piece).1⟩) noRespond := by
  unfold bridge RoutingCycles.receivers
  rw [onReceive_eq]

theorem onReceive_slices (w : Wire) (resp : Nat) (noRespond : ρ) :
    Slices (onReceive w resp noRespond : Receiver (World π M μ) _ _) := by
  intro world ctx
  have hcount := (w.packedFrom_packed ctx.endpointVariant ctx.buffer.bytes).count
  refine ⟨(w.packedFrom ctx.endpointVariant ctx.buffer.bytes).2, ?_, fun hpos => ?_, rfl⟩
  · rw [hcount]
    exact Nat.min_le_right _ _
  · rw [hcount]
    exact room_pos w.addressed (List.ne_nil_of_length_pos hpos)

/-! ## The visits -/

/-- The visit forwards the message that it packs, and takes the piece that is in it. -/
structure Forwards (w : Wire) (resp : Nat) (noRespond : ρ) (origin reduced : EndpointVariant)
    (v : Visit EndpointVariant ρ) : Prop where
  started : v.started = some ⟨reduced, ⟨resp, w.push (w.packedFrom origin v.buffer.bytes).1⟩, noRespond⟩
  piece : v.piece = v.buffer.bytes.take (w.packedFrom origin v.buffer.bytes).2

variable {cycle : World π M μ → NotifyCtx EndpointVariant ρ → Option (World π M μ)} {ctx : NotifyCtx EndpointVariant ρ}
variable {x : EndpointVariant} {l l' : Loop (World π M μ) EndpointVariant ρ} {fuel : Nat}

theorem visit_forwards (hv : visit cycle (onReceive w resp noRespond) ctx x l = some l') :
    ∃ v, l'.visits = l.visits ++ [v] ∧ Forwards w resp noRespond ctx.endpointVariant x v := by
  obtain ⟨v, hv⟩ := visit_visited hv
  have hforwards : v.forwards = [⟨⟨resp, w.push (w.packedFrom ctx.endpointVariant l.bufferSlice.bytes).1⟩, noRespond⟩] :=
    hv.forwards
  have hleft : v.left = l.bufferSlice.slice (w.packedFrom ctx.endpointVariant l.bufferSlice.bytes).2 := hv.sliced
  have hle : (w.packedFrom ctx.endpointVariant l.bufferSlice.bytes).2 ≤ l.bufferSlice.size :=
    (w.packedFrom_packed ctx.endpointVariant l.bufferSlice.bytes).count.trans_le (Nat.min_le_right _ _)
  refine ⟨v, hv.visits, ?_, ?_⟩
  · rw [hv.asked (by rw [Visit.consumes, hforwards]; rfl), Visit.asked, hforwards, hv.buffer]
    rfl
  · rw [Visit.piece, hleft, hv.buffer, ConstBuffer.size_slice]
    congr 1
    omega

/-- The visits make the buffer, and there is at least one. -/
theorem revisit_forwards (hrun : revisit cycle (onReceive w resp noRespond) ctx x fuel l = some l')
    (hl : ∀ v ∈ l.visits, Forwards w resp noRespond ctx.endpointVariant x v) :
    l'.visits ≠ [] ∧ ∀ v ∈ l'.visits, Forwards w resp noRespond ctx.endpointVariant x v := by
  have hstep : ∀ l l' : Loop (World π M μ) EndpointVariant ρ,
      (∀ v ∈ l.visits, Forwards w resp noRespond ctx.endpointVariant x v) →
      visit cycle (onReceive w resp noRespond) ctx x l = some l' →
      l'.visits ≠ [] ∧ ∀ v ∈ l'.visits, Forwards w resp noRespond ctx.endpointVariant x v := by
    intro l l' hl hv
    obtain ⟨v, hvisits, hforwards⟩ := visit_forwards hv
    rw [hvisits]
    refine ⟨List.append_ne_nil_of_right_ne_nil _ (List.cons_ne_nil v []), fun u hu => ?_⟩
    rcases List.mem_append.mp hu with hu | hu
    · exact hl u hu
    · rw [List.mem_singleton.mp hu]
      exact hforwards
  cases fuel with
  | zero => cases hrun
  | succ fuel =>
    rw [revisit, Option.bind_eq_some_iff] at hrun
    obtain ⟨l₁, hv, hrun⟩ := hrun
    have h₁ := hstep l l₁ hl hv
    split at hrun
    · exact revisit_induct (fun l l' h hv => hstep l l' h.2 hv) h₁ hrun
    · obtain rfl := Option.some_inj.mp hrun
      exact h₁

end

/-! ## The cycle -/

/-- The rules for packing are those of the opened ports. -/
theorem table_wf {uart udp : Bool} {r : RoutingRules} (h : Table uart udp r) : WfRules r := by
  have hstatic : ∀ uart udp, ∀ t ∈ kStaticRoutingRules uart udp, t.2.1 ≠ .named .mavlinkIpPack := by decide
  have hopened : ∀ o x, (o, .named .mavlinkIpPack, x) ∈ r.rulesOf →
      ∃ port : Key, o = port.origin ∧ x = .named .mavlinkIpPackForwarded := by
    intro o x hx
    rcases h.rules _ hx with hrule | ⟨port, heq⟩
    · exact absurd rfl (hstatic uart udp _ hrule)
    · cases heq
      exact ⟨port, rfl, rfl⟩
  refine ⟨h.sorted, fun o x hx => ?_, fun o x hx => ?_⟩
  · obtain ⟨⟨proto, port⟩, rfl, -⟩ := hopened o x hx
    cases proto with
    | tcp => exact ⟨port, .inl rfl⟩
    | udp => exact ⟨port, .inr rfl⟩
  · obtain ⟨-, -, hforwarded⟩ := hopened o x hx
    exact hforwarded

section
variable {π M μ ρ : Type} (lib : Mavlink π M) (mic : Aggregate M μ) (w : Wire) (resp : Nat) (noRespond : ρ)
variable (rules : μ → RoutingRules)

/-- The rules of the bridge at work. -/
def reduceBy (s : World π M μ) : EndpointVariant → EndpointVariant → Option EndpointVariant :=
  reduced (rules s.dispatcher.micAggregate)

/-- The cycles nested `depth` deep at most, with `visits` visits to a receiver at most. -/
def cycleOf (depth visits : Nat) : World π M μ → NotifyCtx EndpointVariant ρ → Option (World π M μ) :=
  notifyAsImpl (bridge lib mic w resp noRespond) (reduceBy rules) visits depth

def packedIn (origin : EndpointVariant) (visits : List (Visit EndpointVariant ρ)) : List GsNetwork.Message :=
  visits.map fun v => (w.packedFrom origin v.buffer.bytes).1

/-- The message says what has been received, from whom and where. -/
structure Names (key : Key) (remote : Endpoint) (m : GsNetwork.Message) : Prop where
  command : m.command = .processReceived
  proto : m.transport.proto = some key.1
  remote : m.remote = remote
  localPort : m.hostPort = key.2

/-- The messages are forwarded, their data make the buffer, each names the sender, and each fits. -/
structure Reported (key : Key) (remote : Endpoint) (x : EndpointVariant) (buffer : List UInt8)
    (visits : List (Visit EndpointVariant ρ)) : Prop where
  forwarded : visits.filterMap Visit.started =
    (packedIn w (key.endpoint remote) visits).map fun m => ⟨x, ⟨resp, w.push m⟩, noRespond⟩
  pieces : ((packedIn w (key.endpoint remote) visits).map Message.data).flatten = buffer
  named : ∀ m ∈ packedIn w (key.endpoint remote) visits, Names key remote m
  fits : ∀ m ∈ packedIn w (key.endpoint remote) visits, w.Fits m

/-- The port has a rule, the cycle of the buffer ends, and so do the visits, with all reported. -/
def ReportedCompletely (world : World π M μ) (key : Key) (remote : Endpoint) (buffer : ConstBuffer) (respondCb : ρ) : Prop :=
  ∃ x l enough, reduceBy rules world (key.endpoint remote) (.named .mavlinkIpPack) = some x ∧
    (∀ visits ≥ enough,
      (cycleOf lib mic w resp noRespond rules 3 visits world ⟨key.endpoint remote, buffer, respondCb⟩).isSome = true ∧
      notifyReceiver (cycleOf lib mic w resp noRespond rules 2 visits) visits (onReceive w resp noRespond)
        ⟨key.endpoint remote, buffer, respondCb⟩ x world = some l) ∧
    Reported w resp noRespond key remote x buffer.bytes l.visits

variable {lib mic w resp noRespond rules} {key : Key} {remote : Endpoint}

variable (lib mic w resp noRespond key remote) in
/-- The cycle of a buffer ends, as do the visits to the receiver. -/
theorem cycle_terminates {uart udp : Bool}
    (hmic : ∀ state message, ∃ changes, rules (mic state message).1 = applyAll (rules state) changes)
    {world : World π M μ} (htable : Table uart udp (rules world.dispatcher.micAggregate)) (buffer : ConstBuffer)
    (respondCb : ρ) : ∃ l enough, ∀ visits ≥ enough,
      (cycleOf lib mic w resp noRespond rules 3 visits world ⟨key.endpoint remote, buffer, respondCb⟩).isSome = true ∧
      notifyReceiver (cycleOf lib mic w resp noRespond rules 2 visits) visits (onReceive w resp noRespond)
        ⟨key.endpoint remote, buffer, respondCb⟩ (.named .mavlinkIpPackForwarded) world = some l := by
  have hbuffer : ∀ r ∈ bridge lib mic w resp noRespond, Slices r ∨ Leaves r := by
    rw [bridge_eq]
    exact RoutingCycles.receivers_buffer w.addressed
  have hrules : ∀ r ∈ bridge lib mic w resp noRespond, ∀ s ctx, ∃ changes,
      rules (r.onReceive s ctx).1.dispatcher.micAggregate = applyAll (rules s.dispatcher.micAggregate) changes := by
    rw [bridge_eq]
    exact RoutingCycles.receivers_rules rules hmic
  have hlayered := RoutingCycles.layered uart udp (fun s : World π M μ => rules s.dispatcher.micAggregate) hbuffer hrules
  have hlower := fun o i x (h : RoutingCycles.Rule uart udp o i x) => RoutingCycles.rank_lt h
  obtain ⟨world', -, hends⟩ := cycle_ends hlayered hlower 3 world ⟨key.endpoint remote, buffer, respondCb⟩ htable trivial
    (Nat.lt_succ_of_le (RoutingCycles.rank_le _))
  have hcycle : CyclesEnd (fun s : World π M μ => Table uart udp (rules s.dispatcher.micAggregate))
      (fun visits => cycleOf lib mic w resp noRespond rules 2 visits) (.named .mavlinkIpPackForwarded) := by
    intro world next hworld hnext
    refine cycle_ends hlayered hlower 2 world next hworld trivial ?_
    rw [hnext]
    exact Nat.one_lt_two
  have hkeeps : Bdg.Keeps (fun s : World π M μ => Table uart udp (rules s.dispatcher.micAggregate))
      (onReceive w resp noRespond) ⟨key.endpoint remote, buffer, respondCb⟩ := fun _ _ hworld => hworld
  obtain ⟨l, -, hvisits⟩ := revisit_ends hcycle hkeeps (onReceive_slices w resp noRespond) buffer.size
    ⟨world, buffer, false, buffer, respondCb, []⟩ rfl ⟨rfl, rfl⟩ htable
  obtain ⟨enough, henough⟩ := Filter.eventually_atTop.mp
    (hends.and (hvisits.and (Filter.eventually_gt_atTop buffer.size)))
  refine ⟨l, enough, fun visits hle => ?_⟩
  obtain ⟨hend, hrun, hsize⟩ := henough visits hle
  exact ⟨Option.isSome_iff_exists.mpr ⟨world', hend⟩, hrun visits hsize⟩

/-- The bytes behind the address that has been packed. -/
def behindAddress (origin : EndpointVariant) (m : GsNetwork.Message) : List UInt8 :=
  (m.payload.take m.payloadLen.toNat).drop (tcpSender origin).1.address.toBytes.length

theorem behindAddress_packedFrom (w : Wire) (origin : EndpointVariant) (buffer : List UInt8) :
    behindAddress origin (w.packedFrom origin buffer).1 = buffer.take (w.packedFrom origin buffer).2 := by
  unfold behindAddress
  rw [(w.packedFrom_packed origin buffer).payload, List.drop_left]

/-- What is forwarded of any sender's buffer: all of it, behind the address, in messages that fit. -/
structure Forwarded (w : Wire) (resp : Nat) (noRespond : ρ) (origin x : EndpointVariant) (buffer : List UInt8)
    (visits : List (Visit EndpointVariant ρ)) : Prop where
  forwarded : visits.filterMap Visit.started =
    (packedIn w origin visits).map fun m => ⟨x, ⟨resp, w.push m⟩, noRespond⟩
  behind : ((packedIn w origin visits).map (behindAddress origin)).flatten = buffer
  fits : ∀ m ∈ packedIn w origin visits, w.Fits m

theorem forwarded_of_run {cycle : World π M μ → NotifyCtx EndpointVariant ρ → Option (World π M μ)}
    {ctx : NotifyCtx EndpointVariant ρ} {x : EndpointVariant} {world : World π M μ} {visits : Nat}
    {l : Loop (World π M μ) EndpointVariant ρ}
    (hrun : notifyReceiver cycle visits (onReceive w resp noRespond) ctx x world = some l) :
    Forwarded w resp noRespond ctx.endpointVariant x ctx.buffer.bytes l.visits := by
  obtain ⟨-, hforwards⟩ := revisit_forwards hrun (fun v hv => by cases hv)
  have hpieces := revisit_sliced (onReceive_slices w resp noRespond) ⟨rfl, rfl⟩ hrun
  refine ⟨?_, ?_, fun m hm => ?_⟩
  · have hstarted : l.visits.filterMap Visit.started = l.visits.filterMap fun v =>
        some ⟨x, ⟨resp, w.push (w.packedFrom ctx.endpointVariant v.buffer.bytes).1⟩, noRespond⟩ :=
      List.filterMap_congr fun v hv => (hforwards v hv).started
    rw [hstarted, packedIn, List.map_map]
    exact congrFun List.filterMap_eq_map' _
  · rw [← hpieces, packedIn, List.map_map]
    refine congrArg List.flatten (List.map_congr_left fun v hv => ?_)
    exact (behindAddress_packedFrom w _ _).trans (hforwards v hv).piece.symm
  · obtain ⟨v, -, rfl⟩ := List.mem_map.mp hm
    exact w.packed_fits (w.packedFrom_packed ctx.endpointVariant v.buffer.bytes)

/-- A message of any sender is one of the default endpoint, over UDP. -/
theorem names_iff (key : Key) (remote : Endpoint) (buffer : List UInt8) :
    Names key remote (w.packedFrom (key.endpoint remote) buffer).1 ↔
      key = (.udp, 0) ∧ remote = ⟨.v4 (Vector.replicate 4 0), 0⟩ := by
  have hpacked := w.packedFrom_packed (key.endpoint remote) buffer
  constructor
  · intro h
    have hproto := h.proto
    have hremote := h.remote
    have hlocalPort := h.localPort
    rw [hpacked.transport] at hproto
    obtain ⟨proto, port⟩ := key
    obtain rfl : .udp = proto := Option.some_inj.mp hproto
    obtain ⟨haddress, -⟩ := hpacked.decoded rfl
    rw [haddress] at hremote
    rw [hpacked.hostPort] at hlocalPort
    exact ⟨congrArg (Prod.mk Proto.udp) hlocalPort.symm, hremote.symm⟩
  · intro h
    obtain ⟨rfl, rfl⟩ := h
    refine ⟨rfl, ?_, (hpacked.decoded rfl).1, hpacked.hostPort⟩
    rw [hpacked.transport]
    rfl

/-- **Received data.** The cycle of a buffer ends, with all of it forwarded in messages that fit; but they name
    the sender for the default endpoint alone. -/
theorem received_iff (uart udp : Bool) (changes : List Change)
    (hmic : ∀ state message, ∃ changes, rules (mic state message).1 = applyAll (rules state) changes)
    {world : World π M μ} (hworld : rules world.dispatcher.micAggregate = applyAll (init uart udp) changes)
    (hkey : key ∈ routes (rules world.dispatcher.micAggregate)) (buffer : ConstBuffer) (respondCb : ρ) :
    ReportedCompletely lib mic w resp noRespond rules world key remote buffer respondCb ↔
      key = (.udp, 0) ∧ remote = ⟨.v4 (Vector.replicate 4 0), 0⟩ := by
  have htable : Table uart udp (rules world.dispatcher.micAggregate) := by
    rw [hworld]
    exact RoutingCycles.changes_table (RoutingCycles.init_table uart udp) changes
  have hreduced : reduceBy rules world (key.endpoint remote) (.named .mavlinkIpPack) =
      some (.named .mavlinkIpPackForwarded) := by
    unfold reduceBy reduced
    rw [(reduce_endpoint (table_wf htable) remote).mpr hkey]
    rfl
  constructor
  · intro h
    obtain ⟨x, l, enough, -, hends, hreported⟩ := h
    obtain ⟨hne, -⟩ := revisit_forwards (hends enough (Nat.le_refl _)).2 (fun v hv => by cases hv)
    obtain ⟨v, visits, hvisits⟩ := List.exists_cons_of_ne_nil hne
    apply (names_iff (w := w) key remote v.buffer.bytes).mp
    apply hreported.named
    rw [hvisits]
    exact List.mem_cons_self
  · intro hdefault
    obtain ⟨l, enough, hends⟩ := cycle_terminates lib mic w resp noRespond key remote hmic htable buffer respondCb
    refine ⟨.named .mavlinkIpPackForwarded, l, enough, hreduced, hends, ?_⟩
    have hforwarded := forwarded_of_run (hends enough (Nat.le_refl _)).2
    refine ⟨hforwarded.forwarded, ?_, ?_, hforwarded.fits⟩
    · rw [← hforwarded.behind]
      refine congrArg List.flatten (List.map_congr_left fun m hm => ?_)
      obtain ⟨v, -, rfl⟩ := List.mem_map.mp hm
      obtain ⟨rfl, -⟩ := hdefault
      have hpacked := w.packedFrom_packed (Key.endpoint remote (.udp, 0)) v.buffer.bytes
      exact (hpacked.decoded rfl).2.trans (behindAddress_packedFrom w _ _).symm
    · intro m hm
      obtain ⟨v, -, rfl⟩ := List.mem_map.mp hm
      exact (names_iff key remote v.buffer.bytes).mpr hdefault

end

/-! ## A wire -/

def Command.toByte : Command → UInt8
  | .connect => 0
  | .disconnect => 1
  | .send => 2
  | .open_ => 3
  | .close => 4
  | .processReceived => 5
  | .other value => value

def Ack.toByte : Ack → UInt8
  | .none => 0
  | .noneHoldResponse => 1
  | .success => 2
  | .fail => 3
  | .other value => value

def Transport.toByte : Transport → UInt8
  | .tcp4 => 0
  | .tcp6 => 1
  | .udp4 => 2
  | .udp6 => 3
  | .other value => value

/-- The fields in front of the payload. -/
def fieldBytes (m : GsNetwork.Message) : List UInt8 :=
  [m.hostPort.toUInt8, (m.hostPort >>> 8).toUInt8, m.remotePort.toUInt8, (m.remotePort >>> 8).toUInt8,
    m.command.toByte, m.ack.toByte, m.transport.toByte, m.payloadLen]

/-- Ten bytes of a header, what is left of the bytes without the zeros at their end, and two of a checksum. -/
def frame (bytes : List UInt8) : List UInt8 :=
  let trimmed := bytes.rdropWhile (· == 0)
  let payload := if trimmed.isEmpty then [0] else trimmed
  [253, UInt8.ofNat payload.length, 0, 0, 0, 1, 1, 0, 0, 0] ++ payload ++ [0, 0]

theorem length_frame (bytes : List UInt8) : (frame bytes).length ≤
    kMaxMavlinkMessageLength - kMaxPayloadLength + max 1 (bytes.rdropWhile (· == 0)).length := by
  unfold frame kMaxMavlinkMessageLength kMaxPayloadLength
  dsimp only
  split <;> simp only [List.length_append, List.length_cons, List.length_nil] <;> omega

def mavlink2 : Wire where
  kMaxPayloadLen := 247
  sizeofFields   := 8
  sizeofMessage  := 291
  fields         := fieldBytes
  toSendBuffer   := frame
  addressed      := Nat.le_of_ble_eq_true rfl
  fits           := Nat.le_of_ble_eq_true rfl
  length_fields  := fun _ => rfl
  fields_pos     := Nat.le_of_ble_eq_true rfl
  trimmed        := length_frame
  message        := Nat.le_of_ble_eq_true rfl

/-- The bridge, with one port opened. -/
def openedOn (key : Key) : World Unit Message State where
  dispatcher := ⟨⟨(), []⟩, ⟨{}, applyAll (init true true) [.opened key]⟩, [], []⟩
  popped     := rfl

/-- What the default endpoint would send to port 0. -/
theorem received_from_the_default_endpoint :
    ReportedCompletely RoutingCycles.openOnOne (RoutingCycles.gsNetwork false {}) mavlink2 64 () State.rules
      (openedOn (.udp, 0)) (.udp, 0) ⟨.v4 (Vector.replicate 4 0), 0⟩ ⟨16, [1, 2, 3]⟩ () :=
  (received_iff true true [.opened (.udp, 0)] (RoutingCycles.gsNetwork_rules false {}) rfl
    (RoutingRules.ruled_iff.mpr (by decide)) ⟨16, [1, 2, 3]⟩ ()).mpr ⟨rfl, rfl⟩

/-- Three bytes of a client are reported as of the endpoint 0.0.0.0:0, received on port 0. -/
theorem a_client_is_reported_as_the_default_endpoint :
    let client : Endpoint := ⟨.v4 #v[192, 168, 4, 2], 14550⟩
    let packed := mavlink2.packedFrom (.udpEndpoint client 8002) [1, 2, 3]
    packed.1.remote = ⟨.v4 #v[0, 0, 0, 0], 0⟩ ∧ packed.1.hostPort = 0 ∧ packed.1.data = [1, 2, 3] ∧
      ¬ ReportedCompletely RoutingCycles.openOnOne (RoutingCycles.gsNetwork false {}) mavlink2 64 () State.rules
        (openedOn (.udp, 8002)) (.udp, 8002) client ⟨16, [1, 2, 3]⟩ () := by
  refine ⟨by decide +kernel, by decide +kernel, by decide +kernel, fun h => ?_⟩
  obtain ⟨x, l, enough, -, hends, hreported⟩ := h
  obtain ⟨hne, -⟩ := revisit_forwards (hends enough (Nat.le_refl _)).2 (fun v hv => by cases hv)
  obtain ⟨v, visits, hvisits⟩ := List.exists_cons_of_ne_nil hne
  have hnames := hreported.named (mavlink2.packedFrom (.udpEndpoint ⟨.v4 #v[192, 168, 4, 2], 14550⟩ 8002) v.buffer.bytes).1
    (by rw [hvisits]; exact List.mem_cons_self)
  exact absurd ((names_iff (.udp, 8002) _ v.buffer.bytes).mp hnames).1 (by decide)

end Esp32Cam.Mav.GsNetwork
