/-
  Esp32Cam.Mav.GsNetworkPayload — the payload of MAV_GS_NETWORK, packed and taken out again.

  The payload is the IP address, and what there is room for of the data behind it. Which of
  the two versions and which protocol it is, the transport says; it is looked up under
  `(kTcp << 1) & kIp6`, which is 0 whatever the two are, so that all is packed as UDP over
  IPv4. `round_trip_iff`: what has been packed is read back for a UDP endpoint with an IPv4
  address, and for no other.

  To take the data out is to skip the address: the length is that of the payload less that
  of the address, as a `size_t`. It is within the message exactly when the payload has an
  address, and is no longer than its field (`payload_bounded_iff`).

  `kMaxPayloadLen` is the size of the field.
-/

import Esp32Cam.Lib.Memory
import Esp32Cam.Lib.Word
import Esp32Cam.Mav.GsNetworkRoutes

namespace Esp32Cam.Asio

def Address.isV6 : Address → Bool
  | .v4 _ => false
  | .v6 .. => true

def Address.toBytes : Address → List UInt8
  | .v4 bytes => bytes.toList
  | .v6 bytes _ => bytes.toList

theorem Address.length_toBytes (a : Address) : a.toBytes.length = if a.isV6 then 16 else 4 := by
  cases a with
  | v4 bytes => exact bytes.length_toList
  | v6 bytes scopeId => exact bytes.length_toList

theorem Address.length_toBytes_le (a : Address) : a.toBytes.length ≤ 16 := by
  rw [Address.length_toBytes]
  split <;> omega

end Esp32Cam.Asio

namespace Esp32Cam.Mav.GsNetwork

open Esp32Cam.Lib
open Esp32Cam.Asio (Address Endpoint)

/-! ## Packing -/

def kTransportMap : Vector Transport 4 := #v[.udp4, .udp6, .tcp4, .tcp6]

/-- The message, and how much of the buffer it takes. -/
def initMavlinkMavGsNetwork (kMaxPayloadLen : Nat) (proto : Proto) (mavGsNetwork : Message) (aRemoteEndpoint : Endpoint)
    (aLocalPort : UInt16) (aBuffer : List UInt8) : Message × Nat :=
  let kIp6 := aRemoteEndpoint.address.isV6
  let kTcp := proto == .tcp
  let bytes := aRemoteEndpoint.address.toBytes
  let addressLength : UInt8 := if kIp6 then 16 else 4
  let nWrite := UInt8.ofNat (min (u32Sub kMaxPayloadLen addressLength.toNat) aBuffer.length)
  ({ mavGsNetwork with
      remotePort := aRemoteEndpoint.port
      hostPort   := aLocalPort
      transport  := kTransportMap.get (Fin.ofNat 4 ((kTcp.toNat <<< 1) &&& kIp6.toNat))
      payloadLen := addressLength + nWrite
      payload    := splice (splice (List.replicate kMaxPayloadLen 0) 0 bytes) addressLength.toNat
        (aBuffer.take nWrite.toNat) },
    nWrite.toNat)

/-- Bits 1 and 0 have none in common. -/
theorem transport_index (tcp ip6 : Bool) : (tcp.toNat <<< 1) &&& ip6.toNat = 0 := by
  cases tcp <;> cases ip6 <;> rfl

section
variable {kMaxPayloadLen : Nat} {proto : Proto} {m : Message} {remote : Endpoint} {localPort : UInt16}
variable {buffer : List UInt8}

def room (kMaxPayloadLen : Nat) (remote : Endpoint) (buffer : List UInt8) : Nat :=
  min (kMaxPayloadLen - remote.address.toBytes.length) buffer.length

/-- What is packed: the address, and a piece of the buffer behind it. -/
structure Packed (kMaxPayloadLen : Nat) (remote : Endpoint) (localPort : UInt16) (buffer : List UInt8)
    (packed : Message × Nat) : Prop where
  remotePort : packed.1.remotePort = remote.port
  hostPort : packed.1.hostPort = localPort
  transport : packed.1.transport = .udp4
  count : packed.2 = room kMaxPayloadLen remote buffer
  length : packed.1.payload.length = kMaxPayloadLen
  payloadLen : packed.1.payloadLen.toNat = remote.address.toBytes.length + packed.2
  payload : packed.1.payload.take packed.1.payloadLen.toNat = remote.address.toBytes ++ buffer.take packed.2
  rest : ∀ b ∈ packed.1.payload.drop packed.1.payloadLen.toNat, b = 0

theorem toNat_addressLength (a : Address) : (if a.isV6 then 16 else 4 : UInt8).toNat = a.toBytes.length := by
  cases a with
  | v4 bytes => exact bytes.length_toList.symm
  | v6 bytes scopeId => exact bytes.length_toList.symm

/-- The message in its parts. -/
theorem init_eq (hmin : 16 < kMaxPayloadLen) (hmax : kMaxPayloadLen ≤ 255) :
    initMavlinkMavGsNetwork kMaxPayloadLen proto m remote localPort buffer =
      ({ m with
          remotePort := remote.port
          hostPort   := localPort
          transport  := .udp4
          payloadLen := UInt8.ofNat (remote.address.toBytes.length + room kMaxPayloadLen remote buffer)
          payload    := splice (splice (List.replicate kMaxPayloadLen 0) 0 remote.address.toBytes)
            remote.address.toBytes.length (buffer.take (room kMaxPayloadLen remote buffer)) },
        room kMaxPayloadLen remote buffer) := by
  have haddress := toNat_addressLength remote.address
  have hbytes := remote.address.length_toBytes_le
  have hsub : u32Sub kMaxPayloadLen remote.address.toBytes.length = kMaxPayloadLen - remote.address.toBytes.length := by
    unfold u32Sub uint32
    omega
  have hroom : room kMaxPayloadLen remote buffer ≤ kMaxPayloadLen - remote.address.toBytes.length := Nat.min_le_left _ _
  have hwrite : min (u32Sub kMaxPayloadLen remote.address.toBytes.length) buffer.length = room kMaxPayloadLen remote buffer := by
    rw [hsub]
    rfl
  have hcount : (UInt8.ofNat (room kMaxPayloadLen remote buffer)).toNat = room kMaxPayloadLen remote buffer := by
    rw [UInt8.toNat_ofNat']
    exact Nat.mod_eq_of_lt (by omega)
  have hlength : (if remote.address.isV6 then 16 else 4 : UInt8) = UInt8.ofNat remote.address.toBytes.length := by
    rw [← haddress, UInt8.ofNat_toNat]
  unfold initMavlinkMavGsNetwork
  simp only [transport_index, haddress, hwrite, hcount]
  rw [hlength, ← UInt8.ofNat_add]
  rfl

theorem init_packed (hmin : 16 < kMaxPayloadLen) (hmax : kMaxPayloadLen ≤ 255) : Packed kMaxPayloadLen remote localPort buffer
    (initMavlinkMavGsNetwork kMaxPayloadLen proto m remote localPort buffer) := by
  have hbytes := remote.address.length_toBytes_le
  have hroom : room kMaxPayloadLen remote buffer ≤ kMaxPayloadLen - remote.address.toBytes.length := Nat.min_le_left _ _
  have htaken : (buffer.take (room kMaxPayloadLen remote buffer)).length = room kMaxPayloadLen remote buffer := by
    rw [List.length_take]
    exact Nat.min_eq_left (Nat.min_le_right _ _)
  have hzeros : (List.replicate kMaxPayloadLen (0 : UInt8)).length = kMaxPayloadLen := List.length_replicate
  have hfirst : (splice (List.replicate kMaxPayloadLen 0) 0 remote.address.toBytes).length = kMaxPayloadLen :=
    (length_splice (by omega)).trans hzeros
  have hlength : (UInt8.ofNat (remote.address.toBytes.length + room kMaxPayloadLen remote buffer)).toNat =
      remote.address.toBytes.length + room kMaxPayloadLen remote buffer := by
    rw [UInt8.toNat_ofNat']
    exact Nat.mod_eq_of_lt (by omega)
  rw [init_eq hmin hmax]
  refine ⟨rfl, rfl, rfl, rfl, ?_, hlength, ?_, ?_⟩
  · exact (length_splice (by omega)).trans hfirst
  · have htake := take_splice (splice (List.replicate kMaxPayloadLen 0) 0 remote.address.toBytes)
      (buffer.take (room kMaxPayloadLen remote buffer)) remote.address.toBytes.length (by omega)
    have hbefore := take_splice (List.replicate kMaxPayloadLen 0) remote.address.toBytes 0 (Nat.zero_le _)
    rw [Nat.zero_add, List.take_zero, List.nil_append] at hbefore
    rw [htaken, hbefore] at htake
    dsimp only
    rw [hlength]
    exact htake
  · have hdrop := drop_splice (splice (List.replicate kMaxPayloadLen 0) 0 remote.address.toBytes)
      (buffer.take (room kMaxPayloadLen remote buffer)) remote.address.toBytes.length 0 (by omega)
    have hzero := drop_splice (List.replicate kMaxPayloadLen 0) remote.address.toBytes 0
      (room kMaxPayloadLen remote buffer) (Nat.zero_le _)
    rw [Nat.zero_add] at hzero
    rw [Nat.add_zero, htaken, hzero] at hdrop
    dsimp only
    rw [hlength, hdrop]
    exact fun b hb => List.eq_of_mem_replicate (List.mem_of_mem_drop hb)

/-- The message has no more of the buffer than the piece it takes. -/
theorem init_take (hmin : 16 < kMaxPayloadLen) (hmax : kMaxPayloadLen ≤ 255) :
    initMavlinkMavGsNetwork kMaxPayloadLen proto m remote localPort (buffer.take (room kMaxPayloadLen remote buffer)) =
      initMavlinkMavGsNetwork kMaxPayloadLen proto m remote localPort buffer := by
  have hroom : room kMaxPayloadLen remote (buffer.take (room kMaxPayloadLen remote buffer)) =
      room kMaxPayloadLen remote buffer := by
    unfold room
    rw [List.length_take]
    omega
  rw [init_eq hmin hmax, init_eq hmin hmax, hroom, List.take_take, Nat.min_self]

/-- Something of the buffer is taken. -/
theorem room_pos (hmin : 16 < kMaxPayloadLen) (hne : buffer ≠ []) : 0 < room kMaxPayloadLen remote buffer := by
  have hbytes := remote.address.length_toBytes_le
  have hbuffer := List.length_pos_iff.mpr hne
  unfold room
  omega

end

/-! ## Taking it out again -/

def Transport.proto : Transport → Option Proto
  | .tcp4 | .tcp6 => some .tcp
  | .udp4 | .udp6 => some .udp
  | .other _ => none

def Transport.isIp6 : Transport → Bool
  | .tcp6 | .udp6 => true
  | _ => false

def Message.data (m : Message) : List UInt8 := (m.payload.drop (getBuffer m).1).take (getBuffer m).2

structure RoundTrips (proto : Proto) (remote : Endpoint) (localPort : UInt16) (buffer : List UInt8)
    (packed : Message × Nat) : Prop where
  proto : packed.1.transport.proto = some proto
  version : packed.1.transport.isIp6 = remote.address.isV6
  address : packed.1.remote = remote
  localPort : packed.1.hostPort = localPort
  payload : packed.1.data = buffer.take packed.2
  progress : buffer ≠ [] → 0 < packed.2

section
variable {kMaxPayloadLen : Nat} {proto : Proto} {m : Message} {remote : Endpoint} {localPort : UInt16}
variable {buffer : List UInt8}

/-- The address is that of an IPv4 endpoint, and the data what has been packed behind it. -/
theorem Packed.decoded {packed : Message × Nat} (h : Packed kMaxPayloadLen remote localPort buffer packed)
    (hv4 : remote.address.isV6 = false) : packed.1.remote = remote ∧ packed.1.data = buffer.take packed.2 := by
  obtain ⟨⟨bytes⟩ | ⟨bytes, scopeId⟩, port⟩ := remote
  · have hbytes : bytes.toList.length = 4 := bytes.length_toList
    have hlength : packed.1.payloadLen.toNat = 4 + packed.2 := h.payloadLen.trans (congrArg (· + packed.2) hbytes)
    have hpayload : packed.1.payload.take (4 + packed.2) = bytes.toList ++ buffer.take packed.2 := by
      rw [← hlength]
      exact h.payload
    have hbyte : ∀ i : Fin 4, packed.1.byte i = bytes[i] := by
      intro i
      have htake : (packed.1.payload.take (4 + packed.2))[i.val]? = packed.1.payload[i.val]? :=
        List.getElem?_take_of_lt (by omega)
      rw [hpayload, List.getElem?_append_left (by omega)] at htake
      have hi : bytes.toList[i.val]? = some bytes[i] := by simp
      rw [Message.byte, List.getD, ← htake, hi]
      rfl
    have haddress : getAddress packed.1 = .v4 bytes := by
      unfold getAddress
      rw [h.transport]
      refine congrArg Address.v4 (Vector.ext fun i hi => ?_)
      rw [Vector.getElem_ofFn]
      exact hbyte ⟨i, hi⟩
    have hbuffer : getBuffer packed.1 = (4, packed.2) := by
      have hword : (2 ^ 32 + (4 + packed.2) - 4) % 2 ^ 32 = packed.2 := by
        have hsmall := packed.1.payloadLen.toNat_lt
        omega
      unfold getBuffer
      rw [h.transport, hlength]
      exact congrArg (Prod.mk 4) hword
    refine ⟨?_, ?_⟩
    · show (⟨getAddress packed.1, packed.1.remotePort⟩ : Endpoint) = _
      rw [haddress, h.remotePort]
    · unfold Message.data
      rw [hbuffer, List.take_drop, hpayload, List.drop_left' hbytes]
  · cases hv4

/-- **Round trip.** What has been packed is read back exactly for UDP over IPv4. -/
theorem round_trip_iff (hmin : 16 < kMaxPayloadLen) (hmax : kMaxPayloadLen ≤ 255) :
    RoundTrips proto remote localPort buffer (initMavlinkMavGsNetwork kMaxPayloadLen proto m remote localPort buffer) ↔
      proto = .udp ∧ remote.address.isV6 = false := by
  have h : Packed kMaxPayloadLen remote localPort buffer
      (initMavlinkMavGsNetwork kMaxPayloadLen proto m remote localPort buffer) := init_packed hmin hmax
  constructor
  · intro hround
    have hproto := hround.proto
    have hversion := hround.version
    rw [h.transport] at hproto hversion
    exact ⟨(Option.some_inj.mp hproto).symm, hversion.symm⟩
  · intro hudp
    obtain ⟨rfl, hv4⟩ := hudp
    obtain ⟨haddress, hdata⟩ := h.decoded hv4
    refine ⟨?_, ?_, haddress, h.hostPort, hdata, fun hne => ?_⟩
    · rw [h.transport]
      rfl
    · rw [h.transport, hv4]
      rfl
    · rw [h.count]
      exact room_pos hmin hne

end

def received : Message := ⟨0, 0, .processReceived, .noneHoldResponse, .other 0, 0, []⟩

/-- Two bytes of a UDP client. -/
theorem round_trip_of_a_udp_client :
    RoundTrips .udp ⟨.v4 #v[192, 168, 4, 2], 14550⟩ 8001 [1, 2]
      (initMavlinkMavGsNetwork 247 .udp received ⟨.v4 #v[192, 168, 4, 2], 14550⟩ 8001 [1, 2]) :=
  (round_trip_iff (by decide) (by decide)).mpr ⟨rfl, rfl⟩

/-- What has come from a TCP client is packed as from a UDP client; what has come over IPv6 has its address
    cut to four bytes, and the others in front of its data. -/
theorem all_is_packed_as_udp4 :
    (let packed := initMavlinkMavGsNetwork 247 .tcp received ⟨.v4 #v[192, 168, 4, 2], 5760⟩ 8080 [1]
     packed.1.transport = .udp4 ∧ ¬ RoundTrips .tcp ⟨.v4 #v[192, 168, 4, 2], 5760⟩ 8080 [1] packed) ∧
    (let packed := initMavlinkMavGsNetwork 247 .udp received
      ⟨.v6 #v[1, 2, 3, 4, 5, 6, 7, 8, 9, 10, 11, 12, 13, 14, 15, 16] 0, 14550⟩ 8001 [1]
     packed.2 = 1 ∧ packed.1.remote = ⟨.v4 #v[1, 2, 3, 4], 14550⟩ ∧
       packed.1.data = [5, 6, 7, 8, 9, 10, 11, 12, 13, 14, 15, 16, 1]) := by
  refine ⟨⟨by decide +kernel, fun h => ?_⟩, by decide +kernel, by decide +kernel, by decide +kernel⟩
  have hproto := h.proto
  revert hproto
  decide +kernel

/-! ## Bounds -/

/-- What a SEND reads: the bytes behind `getBuffer`, in a memory that has the payload at `payload`. -/
def sent (memory : Nat → UInt8) (payload : Nat) (m : Message) : List UInt8 :=
  readMem memory (payload + (getBuffer m).1) (getBuffer m).2

/-- The range is within the field and within the declared length; what is sent is of the received bytes alone. -/
structure PayloadBounded (kMaxPayloadLen : Nat) (m : Message) : Prop where
  field : (getBuffer m).1 + (getBuffer m).2 ≤ kMaxPayloadLen
  declared : (getBuffer m).1 + (getBuffer m).2 ≤ m.payloadLen.toNat
  confined : ∀ memory memory' payload,
    (∀ i < min m.payloadLen.toNat kMaxPayloadLen, memory (payload + i) = memory' (payload + i)) →
      sent memory payload m = sent memory' payload m

/-- The bytes that a transport has in front of the data, where it is a transport. -/
def Transport.addressLength : Transport → Option Nat
  | .tcp4 | .udp4 => some 4
  | .tcp6 | .udp6 => some 16
  | .other _ => none

theorem getBuffer_eq (m : Message) : getBuffer m = match m.transport.addressLength with
    | some n => (n, (2 ^ 32 + m.payloadLen.toNat - n) % 2 ^ 32)
    | none => (0, 0) := by
  unfold getBuffer
  cases m.transport <;> rfl

/-- A range within both is read from the received bytes. -/
theorem sent_congr {m : Message} {n payload : Nat} {memory memory' : Nat → UInt8}
    (h : (getBuffer m).1 + (getBuffer m).2 ≤ n) (heq : ∀ i < n, memory (payload + i) = memory' (payload + i)) :
    sent memory payload m = sent memory' payload m := by
  refine readMem_congr fun i hlow hhigh => ?_
  obtain ⟨k, rfl⟩ := Nat.exists_eq_add_of_le (Nat.le_trans (Nat.le_add_right payload (getBuffer m).1) hlow)
  exact heq k (by omega)

/-- **Bounds.** A SEND stays within the payload exactly when it has no data, or a payload that has an
    address and is no longer than its field. -/
theorem payload_bounded_iff (kMaxPayloadLen : Nat) (m : Message) : PayloadBounded kMaxPayloadLen m ↔
    ∀ n, m.transport.addressLength = some n → n ≤ m.payloadLen.toNat ∧ m.payloadLen.toNat ≤ kMaxPayloadLen := by
  have hbuffer := getBuffer_eq m
  have hsmall := m.payloadLen.toNat_lt
  constructor
  · intro h n hn
    have hfield := h.field
    have hdeclared := h.declared
    have hle : n ≤ 16 := by
      revert hn
      cases m.transport <;> simp [Transport.addressLength] <;> omega
    rw [hn] at hbuffer
    rw [hbuffer] at hfield hdeclared
    dsimp only at hfield hdeclared
    omega
  · intro h
    have hbounds : (getBuffer m).1 + (getBuffer m).2 ≤ min m.payloadLen.toNat kMaxPayloadLen := by
      cases hn : m.transport.addressLength with
      | none =>
        rw [hbuffer, hn]
        exact Nat.zero_le _
      | some n =>
        obtain ⟨haddress, hfield⟩ := h n hn
        rw [hbuffer, hn]
        dsimp only
        omega
    exact ⟨Nat.le_trans hbounds (Nat.min_le_right _ _), Nat.le_trans hbounds (Nat.min_le_left _ _),
      fun memory memory' payload => sent_congr hbounds⟩

/-- A SEND over TCP with no payload, not even an address. -/
def noAddress : Message := ⟨8080, 5760, .send, .none, .tcp4, 0, []⟩

/-- Four bytes less than none are to be sent, from the fifth byte on. -/
theorem a_send_without_an_address_reads_behind_the_message :
    getBuffer noAddress = (4, 4294967292) ∧ ¬ PayloadBounded 247 noAddress := by
  refine ⟨by decide, fun h => ?_⟩
  exact absurd h.field (by decide)

end Esp32Cam.Mav.GsNetwork
