/-
  Esp32Cam.Bdg.EndpointVariant — the identities of senders and receivers.

  A variant is ordered by its alternative, then by its content; an address by its
  version, then by its bytes. `words` writes that order out: two variants compare as
  their words do, and it is a linear order, since no two variants have the same words
  (`words_injective`).
-/

import Mathlib.Data.List.Lex
import Mathlib.Data.Nat.Basic

namespace Esp32Cam.Asio

inductive Address where
  | v4 (bytes : Vector UInt8 4)
  | v6 (bytes : Vector UInt8 16) (scopeId : Nat)
  deriving DecidableEq, Repr

structure Endpoint where
  address : Address
  port : UInt16
  deriving DecidableEq, Repr

/-- The version and the bytes, in the order they are compared. -/
def Address.words : Address → List Nat
  | .v4 bytes => 0 :: bytes.toList.map UInt8.toNat
  | .v6 bytes scopeId => 1 :: (bytes.toList.map UInt8.toNat ++ [scopeId])

def Endpoint.words (a : Endpoint) : List Nat := a.address.words ++ [a.port.toNat]

theorem bytes_injective {n : Nat} {a b : Vector UInt8 n} (h : a.toList.map UInt8.toNat = b.toList.map UInt8.toNat) :
    a = b := by
  have := List.map_injective_iff.mpr (fun _ _ => UInt8.toNat_inj.mp) h
  exact Vector.toList_inj.mp this

theorem Address.words_injective {a b : Address} (h : a.words = b.words) : a = b := by
  cases a with
  | v4 bytes =>
    cases b with
    | v4 bytes' => rw [bytes_injective (List.cons.inj h).2]
    | v6 bytes' scopeId' => cases (List.cons.inj h).1
  | v6 bytes scopeId =>
    cases b with
    | v4 bytes' => cases (List.cons.inj h).1
    | v6 bytes' scopeId' =>
      obtain ⟨hbytes, hscope⟩ := List.append_inj' (List.cons.inj h).2 rfl
      rw [bytes_injective hbytes, (List.cons.inj hscope).1]

theorem Endpoint.words_injective {a b : Endpoint} (h : a.words = b.words) : a = b := by
  obtain ⟨address, port⟩ := a
  obtain ⟨address', port'⟩ := b
  obtain ⟨haddress, hport⟩ := List.append_inj' h rfl
  obtain rfl : address = address' := Address.words_injective haddress
  obtain rfl : port = port' := UInt16.toNat_inj.mp (List.cons.inj hport).1
  rfl

end Esp32Cam.Asio

namespace Esp32Cam.Bdg

open Esp32Cam.Asio

inductive NamedEndpoint where
  | mavlink
  | mavlinkIpPack
  | uartMavlinkForwarded
  | udpMavlinkForwarded
  | mavlinkIpPackForwarded
  | none
  deriving DecidableEq, Repr

inductive EndpointVariant where
  | named (a : NamedEndpoint)
  | tcpEndpoint (a : Endpoint) (port : UInt16)
  | udpEndpoint (a : Endpoint) (port : UInt16)
  | uartEndpoint (num : UInt8)
  | udp (a : Endpoint)
  | tcp (a : Endpoint)
  | tcpPort (port : UInt16)
  | udpPort (port : UInt16)
  | udpHook (port : UInt16)
  deriving DecidableEq, Repr

namespace EndpointVariant

def which : EndpointVariant → Nat
  | named _ => 0
  | tcpEndpoint .. => 1
  | udpEndpoint .. => 2
  | uartEndpoint _ => 3
  | udp _ => 4
  | tcp _ => 5
  | tcpPort _ => 6
  | udpPort _ => 7
  | udpHook _ => 8

def content : EndpointVariant → List Nat
  | named a => [a.ctorIdx]
  | tcpEndpoint a port => a.words ++ [port.toNat]
  | udpEndpoint a port => a.words ++ [port.toNat]
  | uartEndpoint num => [num.toNat]
  | udp a => a.words
  | tcp a => a.words
  | tcpPort port => [port.toNat]
  | udpPort port => [port.toNat]
  | udpHook port => [port.toNat]

def words (a : EndpointVariant) : List Nat := a.which :: a.content

theorem port_injective {p q : UInt16} (h : [p.toNat] = [q.toNat]) : p = q := UInt16.toNat_inj.mp (List.cons.inj h).1

theorem pair_injective {a b : Endpoint} {p q : UInt16} (h : a.words ++ [p.toNat] = b.words ++ [q.toNat]) :
    a = b ∧ p = q := by
  obtain ⟨hep, hport⟩ := List.append_inj' h rfl
  exact ⟨Endpoint.words_injective hep, port_injective hport⟩

theorem words_injective : Function.Injective words := by
  intro a b h
  obtain ⟨hwhich, hcontent⟩ := List.cons.inj h
  cases a with
  | named x =>
    cases b <;> cases hwhich
    rename_i y
    cases x <;> cases y <;> first | rfl | cases hcontent
  | tcpEndpoint x p =>
    cases b <;> cases hwhich
    obtain ⟨rfl, rfl⟩ := pair_injective hcontent
    rfl
  | udpEndpoint x p =>
    cases b <;> cases hwhich
    obtain ⟨rfl, rfl⟩ := pair_injective hcontent
    rfl
  | uartEndpoint n =>
    cases b <;> cases hwhich
    rw [UInt8.toNat_inj.mp (List.cons.inj hcontent).1]
  | udp x =>
    cases b <;> cases hwhich
    rw [Endpoint.words_injective hcontent]
  | tcp x =>
    cases b <;> cases hwhich
    rw [Endpoint.words_injective hcontent]
  | tcpPort p =>
    cases b <;> cases hwhich
    rw [port_injective hcontent]
  | udpPort p =>
    cases b <;> cases hwhich
    rw [port_injective hcontent]
  | udpHook p =>
    cases b <;> cases hwhich
    rw [port_injective hcontent]

/-- `operator<` of the variant, through its words. -/
instance : LinearOrder EndpointVariant := LinearOrder.lift' words words_injective

/-- What a pair of a sender and a port may also be taken for: the sender, or the port. -/
def asAlternative : EndpointVariant → List EndpointVariant
  | udpEndpoint a port => [udp a, udpPort port]
  | tcpEndpoint a port => [tcp a, tcpPort port]
  | _ => []

/-- An alternative has no alternatives of its own. -/
theorem asAlternative_of_mem {a b : EndpointVariant} (h : b ∈ a.asAlternative) : b.asAlternative = [] := by
  cases a with
  | udpEndpoint x p =>
    rcases List.mem_cons.mp h with rfl | h
    · rfl
    · rw [List.mem_singleton.mp h]; rfl
  | tcpEndpoint x p =>
    rcases List.mem_cons.mp h with rfl | h
    · rfl
    · rw [List.mem_singleton.mp h]; rfl
  | _ => cases h

end EndpointVariant

end Esp32Cam.Bdg
