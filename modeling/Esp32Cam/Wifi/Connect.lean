/-
  Esp32Cam.Wifi.Connect — whether the station has got its connection.

  `wifiStaConnect` registers a handler for three events, asks the driver to connect, and
  waits: with DHCP for an address or a disconnection, three seconds at most, otherwise for a
  connection or a disconnection. The handler sets bits of an event group, and nothing clears
  them. It is run by the task of the events, so events are delivered from the registration
  on, and go on behind the one that ends the wait.

  A call finds no handler registered, and has to leave none. `connect_outcome_iff`: a call
  does that, and is answered by the connection there is when it returns, exactly as long as
  the driver accepts the call, and a connection was heard of by the end of the wait if and
  only if there is one.
-/

import Esp32Cam.Wifi.Configuration

namespace Esp32Cam.Wifi.Connect

open Esp32Cam.Mod.Par

/-! ## Events and bits -/

/-- `esp_err_t`, as far as it is told apart. -/
inductive EspErr where
  | ok
  | fail
  | dhcpAlreadyStarted
  | dhcpAlreadyStopped
  | wifiNotInit
  | wifiNotStarted
  | other (code : Nat)
  deriving DecidableEq, Repr

/-- The events the handler is registered for; a connection comes with its SSID. -/
inductive Event where
  | staConnected (ssid : List UInt8)
  | staDisconnected
  | staGotIp
  deriving DecidableEq, Repr

namespace Event

def isConnection : Event → Bool
  | staGotIp => false
  | _ => true

def isConnected : Event → Bool
  | staConnected _ => true
  | _ => false

end Event

structure Bits where
  connected : Bool := false
  disconnected : Bool := false
  gotIp : Bool := false
  deriving DecidableEq, Repr

/-- What the waits are for. -/
def Bits.gotIpOrDisconnected (b : Bits) : Bool := b.gotIp || b.disconnected
def Bits.connectedOrDisconnected (b : Bits) : Bool := b.connected || b.disconnected

/-- The SSID is not looked at. -/
def staHandler (b : Bits) : Event → Bits
  | .staConnected _ => { b with connected := true }
  | .staDisconnected => { b with disconnected := true }
  | .staGotIp => { b with gotIp := true }

/-- The events `staHandler` is registered for. -/
structure Handlers where
  connected : Bool := false
  disconnected : Bool := false
  gotIp : Bool := false
  deriving DecidableEq, Repr

def Handlers.calls (h : Handlers) : Event → Bool
  | .staConnected _ => h.connected
  | .staDisconnected => h.disconnected
  | .staGotIp => h.gotIp

def Handlers.deliver (h : Handlers) (b : Bits) (e : Event) : Bits := if h.calls e then staHandler b e else b

/-- Without a timeout: `none` where the events leave the task waiting. -/
def xEventGroupWaitBits (awaited : Bits → Bool) (h : Handlers) (b : Bits) : List Event → Option Bits
  | [] => if awaited b then some b else none
  | e :: events => if awaited b then some b else xEventGroupWaitBits awaited h (h.deliver b e) events

/-! ## A call -/

/-- The arguments, what the driver answers, and the events: between the registration and the
    wait, in the time the wait takes at most, and from there to the return. -/
structure Call where
  targetApSsid : CString
  targetApPassword : CString
  ip : Option (Vector UInt8 4)
  gateway : Option (Vector UInt8 4)
  netmask : Option (Vector UInt8 4)
  getApInfo : EspErr := .fail
  disconnect : EspErr := .ok
  dhcpc : EspErr := .ok
  setIpInfo : EspErr := .ok
  setConfig : EspErr := .ok
  registered : Handlers := ⟨true, true, true⟩
  connect : EspErr := .ok
  before : List Event := []
  waiting : List Event := []
  behind : List Event := []
  deriving DecidableEq

structure Held where
  handlers : Handlers := {}
  groups : Nat := 0
  deriving DecidableEq, Repr

/-- The three handlers are unregistered, and the group is deleted. -/
def Held.release (h : Held) : Held := ⟨{}, h.groups - 1⟩

structure Returned where
  /-- `none`: it does not return. -/
  result : Option EspErr
  held : Held
  deriving DecidableEq, Repr

namespace Call

def useDhcp (c : Call) : Bool := c.ip.isNone || c.gateway.isNone || c.netmask.isNone

/-- What `wifiConfigStaConnection` returns. -/
def netifResult (c : Call) : EspErr :=
  if c.useDhcp then if c.dhcpc = .dhcpAlreadyStarted then .ok else c.dhcpc
  else if c.dhcpc ≠ .ok ∧ c.dhcpc ≠ .dhcpAlreadyStopped then c.dhcpc
  else c.setIpInfo

def configResult (c : Call) : EspErr := if c.netifResult ≠ .ok then c.netifResult else c.setConfig

/-- Events set their bits from the registration on; with DHCP, the wait has a timeout. -/
def waitBits (c : Call) : Option Bits :=
  let bits := c.before.foldl c.registered.deliver {}
  if c.useDhcp then
    let eventBits := xEventGroupWaitBits Bits.gotIpOrDisconnected c.registered bits c.waiting
    some (eventBits.getD (c.waiting.foldl c.registered.deliver bits))
  else xEventGroupWaitBits Bits.connectedOrDisconnected c.registered bits c.waiting

/-- There is nothing to release yet on the first two returns. -/
def wifiStaConnect (c : Call) : Returned :=
  if c.getApInfo = .ok ∧ (c.disconnect = .wifiNotInit ∨ c.disconnect = .wifiNotStarted) then ⟨some c.disconnect, {}⟩
  else if c.configResult ≠ .ok then ⟨some c.configResult, {}⟩
  else
    let held : Held := ⟨c.registered, 1⟩
    if c.connect ≠ .ok then ⟨some c.connect, held⟩
    else match c.waitBits with
      | some eventBits => ⟨some (if eventBits.connected then .ok else .fail), held.release⟩
      | none => ⟨none, held⟩

/-! ## What is promised -/

/-- It returns before anything is registered. -/
def Refused (c : Call) : Prop :=
  (c.getApInfo = .ok ∧ (c.disconnect = .wifiNotInit ∨ c.disconnect = .wifiNotStarted)) ∨ c.configResult ≠ .ok

instance (c : Call) : Decidable c.Refused := inferInstanceAs (Decidable (_ ∨ _))

/-- The wait ends with this event. -/
def ends (c : Call) (e : Event) : Bool :=
  c.registered.calls e && match e with
    | .staConnected _ => !c.useDhcp
    | .staDisconnected => true
    | .staGotIp => c.useDhcp

def Wakes (c : Call) : Prop := c.useDhcp = true ∨ ∃ e ∈ c.before ++ c.waiting, c.ends e = true

instance (c : Call) : Decidable c.Wakes := inferInstanceAs (Decidable (_ ∨ _))

/-- The events of the call, whether they are heard or not. -/
def occurred (c : Call) : List Event :=
  if c.Refused then [] else if c.connect ≠ .ok then c.before
  else c.before ++ c.waiting ++ if c.Wakes then c.behind else []

/-- The last connection is to the network asked for; with DHCP, there is an address. -/
def Established (c : Call) : Prop :=
  c.occurred.reverse.find? Event.isConnection = some (.staConnected c.targetApSsid.1) ∧
    (c.useDhcp = true → Event.staGotIp ∈ c.occurred)

instance (c : Call) : Decidable c.Established := inferInstanceAs (Decidable (_ ∧ _))

structure AsPromised (c : Call) : Prop where
  outcome : c.wifiStaConnect.result = some .ok ↔ c.Established
  cleanup : c.wifiStaConnect.result.isSome = true → c.wifiStaConnect.held = {}

/-! ## The condition -/

/-- The events up to the one that ends the wait. -/
def untilAwake (c : Call) : List Event :=
  if c.before.any c.ends then c.before
  else c.before ++ (c.waiting.takeWhile (fun e => !c.ends e) ++ (c.waiting.find? c.ends).toList)

/-- A connection, whichever it is, is heard of. -/
def Heard (c : Call) : Prop := ∃ e ∈ c.untilAwake, e.isConnected = true ∧ c.registered.calls e = true

instance (c : Call) : Decidable c.Heard := inferInstanceAs (Decidable (∃ _ ∈ _, _))

end Call

/-! ## Bits -/

section
variable {h : Handlers} {b : Bits} {events : List Event}

theorem deliver_connected (h : Handlers) (b : Bits) (e : Event) :
    (h.deliver b e).connected = (b.connected || (e.isConnected && h.calls e)) := by
  unfold Handlers.deliver
  cases e <;> cases hcalls : h.calls _ <;> simp [staHandler, Event.isConnected]

/-- Bits are sticky. -/
theorem foldl_deliver_connected (h : Handlers) (events : List Event) (b : Bits) :
    (events.foldl h.deliver b).connected = (b.connected || events.any fun e => e.isConnected && h.calls e) := by
  induction events generalizing b with
  | nil => simp
  | cons e events ih => rw [List.foldl_cons, ih, deliver_connected, List.any_cons, Bool.or_assoc]

section
variable {awaited : Bits → Bool} {ends : Event → Bool}

theorem foldl_deliver_awaited (hends : ∀ b e, awaited (h.deliver b e) = (awaited b || ends e)) (events : List Event)
    (b : Bits) : awaited (events.foldl h.deliver b) = (awaited b || events.any ends) := by
  induction events generalizing b with
  | nil => simp
  | cons e events ih => rw [List.foldl_cons, ih, hends, List.any_cons, Bool.or_assoc]

theorem waitBits_awaited (hb : awaited b = true) : xEventGroupWaitBits awaited h b events = some b := by
  cases events <;> simp [xEventGroupWaitBits, hb]

/-- The wait ends behind the first event that sets an awaited bit. -/
theorem waitBits_find (hends : ∀ b e, awaited (h.deliver b e) = (awaited b || ends e)) (hb : awaited b = false) :
    xEventGroupWaitBits awaited h b events =
      (events.find? ends).map fun e => (events.takeWhile (fun e => !ends e) ++ [e]).foldl h.deliver b := by
  induction events generalizing b with
  | nil => simp [xEventGroupWaitBits, hb]
  | cons e events ih =>
    rw [xEventGroupWaitBits, if_neg (by simp [hb])]
    cases he : ends e with
    | true =>
      rw [waitBits_awaited (by rw [hends, he, Bool.or_true])]
      simp [he]
    | false =>
      rw [ih (by rw [hends, hb, he, Bool.or_false])]
      simp [he]

end

end

/-! ## The wait -/

section
variable {c : Call}

theorem ends_dhcp (hdhcp : c.useDhcp = true) (b : Bits) (e : Event) :
    (c.registered.deliver b e).gotIpOrDisconnected = (b.gotIpOrDisconnected || c.ends e) := by
  unfold Handlers.deliver Bits.gotIpOrDisconnected
  cases e <;> cases hcalls : c.registered.calls _ <;> simp [staHandler, Call.ends, hcalls, hdhcp]

theorem ends_static (hdhcp : c.useDhcp = false) (b : Bits) (e : Event) :
    (c.registered.deliver b e).connectedOrDisconnected = (b.connectedOrDisconnected || c.ends e) := by
  unfold Handlers.deliver Bits.connectedOrDisconnected
  cases e <;> cases hcalls : c.registered.calls _ <;> simp [staHandler, Call.ends, hcalls, hdhcp]

theorem takeWhile_of_find_none {ends : Event → Bool} {events : List Event} (h : events.find? ends = none) :
    events.takeWhile (fun e => !ends e) = events := by
  rw [List.takeWhile_eq_self_iff]
  intro e he
  simpa using List.find?_eq_none.mp h e he

theorem waitBits_dhcp (hdhcp : c.useDhcp = true) :
    c.waitBits = some (c.untilAwake.foldl c.registered.deliver {}) := by
  have hany := foldl_deliver_awaited (ends_dhcp hdhcp) c.before {}
  unfold Call.waitBits Call.untilAwake
  dsimp only
  rw [if_pos hdhcp]
  cases hbefore : c.before.any c.ends with
  | true => rw [waitBits_awaited (by rw [hany, hbefore, Bool.or_true]), if_pos rfl, Option.getD_some]
  | false =>
    rw [waitBits_find (ends_dhcp hdhcp) (by rw [hany, hbefore]; rfl), if_neg Bool.false_ne_true, List.foldl_append]
    cases hfind : c.waiting.find? c.ends with
    | none => simp [takeWhile_of_find_none hfind]
    | some e => simp

theorem waitBits_static (hdhcp : c.useDhcp = false) : c.waitBits =
    if (c.before ++ c.waiting).any c.ends then some (c.untilAwake.foldl c.registered.deliver {}) else none := by
  have hany := foldl_deliver_awaited (ends_static hdhcp) c.before {}
  unfold Call.waitBits Call.untilAwake
  dsimp only
  rw [if_neg (by simp [hdhcp]), List.any_append]
  cases hbefore : c.before.any c.ends with
  | true => rw [waitBits_awaited (by rw [hany, hbefore, Bool.or_true]), if_pos rfl, Bool.true_or, if_pos rfl]
  | false =>
    rw [waitBits_find (ends_static hdhcp) (by rw [hany, hbefore]; rfl), if_neg Bool.false_ne_true, List.foldl_append,
      Bool.false_or]
    cases hfind : c.waiting.find? c.ends with
    | none =>
      have hnone : c.waiting.any c.ends = false := by simpa using List.find?_eq_none.mp hfind
      rw [hnone]
      rfl
    | some e =>
      have hsome : c.waiting.any c.ends = true :=
        List.any_eq_true.mpr ⟨e, List.mem_of_find?_eq_some hfind, List.find?_some hfind⟩
      rw [hsome]
      rfl

/-- Both waits in one: what is set by the end of the wait. -/
theorem waitBits_eq (c : Call) :
    c.waitBits = if c.Wakes then some (c.untilAwake.foldl c.registered.deliver {}) else none := by
  cases hdhcp : c.useDhcp with
  | true => rw [waitBits_dhcp hdhcp, if_pos (show c.Wakes from Or.inl hdhcp)]
  | false =>
    have hwakes : c.Wakes ↔ (c.before ++ c.waiting).any c.ends = true := by
      rw [List.any_eq_true, Call.Wakes, hdhcp, or_iff_right Bool.false_ne_true]
    simp only [waitBits_static hdhcp, hwakes]

theorem heard_iff : c.Heard ↔ (c.untilAwake.foldl c.registered.deliver {}).connected = true := by
  rw [foldl_deliver_connected]
  simp [Call.Heard, List.any_eq_true]

/-- Without an end of the wait there is no connection to hear of: it would have ended it. -/
theorem wakes_of_heard (h : c.Heard) : c.Wakes := by
  cases hdhcp : c.useDhcp with
  | true => exact Or.inl hdhcp
  | false =>
    obtain ⟨e, he, hconnected, hcalls⟩ := h
    refine Or.inr ⟨e, ?_, ?_⟩
    · unfold Call.untilAwake at he
      split at he
      · exact List.mem_append_left _ he
      · rcases List.mem_append.mp he with he | he
        · exact List.mem_append_left _ he
        · refine List.mem_append_right _ ?_
          rcases List.mem_append.mp he with he | he
          · exact (List.takeWhile_sublist _).subset he
          · exact List.mem_of_find?_eq_some (Option.mem_toList.mp he)
    · cases e with
      | staConnected ssid => simp [Call.ends, hcalls, hdhcp]
      | staDisconnected => cases hconnected
      | staGotIp => cases hconnected

/-! ## The returns -/

theorem refused_returned (h : c.Refused) : c.wifiStaConnect.result ≠ some .ok ∧ c.wifiStaConnect.held = {} := by
  unfold Call.wifiStaConnect
  by_cases hdisconnect : c.getApInfo = .ok ∧ (c.disconnect = .wifiNotInit ∨ c.disconnect = .wifiNotStarted)
  · rw [if_pos hdisconnect]
    rcases hdisconnect.2 with heq | heq <;> rw [heq] <;> exact ⟨by decide, rfl⟩
  · have hconfig := h.resolve_left hdisconnect
    rw [if_neg hdisconnect, if_pos hconfig]
    exact ⟨fun heq => hconfig (Option.some_inj.mp heq), rfl⟩

/-- From the registration on. -/
theorem accepted_returned (h : ¬ c.Refused) : c.wifiStaConnect =
    if c.connect ≠ .ok then ⟨some c.connect, c.registered, 1⟩
    else if c.Wakes then ⟨some (if c.Heard then .ok else .fail), {}⟩ else ⟨none, c.registered, 1⟩ := by
  obtain ⟨hdisconnect, hconfig⟩ := not_or.mp h
  unfold Call.wifiStaConnect
  rw [if_neg hdisconnect, if_neg hconfig, waitBits_eq]
  by_cases hwakes : c.Wakes
  · simp only [if_pos hwakes, heard_iff, Held.release]
  · simp only [if_neg hwakes]

theorem not_established_of_refused (h : c.Refused) : ¬ c.Established := by
  intro hestablished
  have hlast := hestablished.1
  rw [Call.occurred, if_pos h] at hlast
  cases hlast

/-- A call the driver does not accept leaves its handlers, and the group. -/
theorem not_cleanup_of_connect (h : ¬ c.Refused) (hconnect : c.connect ≠ .ok) : ¬ c.AsPromised := by
  intro hpromised
  have hcleanup := hpromised.cleanup
  rw [accepted_returned h, if_pos hconnect] at hcleanup
  exact Nat.one_ne_zero (Held.mk.inj (hcleanup rfl)).2

/-- An accepted call succeeds exactly where a connection was heard of. -/
theorem accepted_ok_iff (h : ¬ c.Refused) (hconnect : c.connect = .ok) : c.wifiStaConnect.result = some .ok ↔ c.Heard := by
  rw [accepted_returned h, if_neg (by simp [hconnect])]
  by_cases hheard : c.Heard
  · simp [wakes_of_heard hheard, hheard]
  · by_cases hwakes : c.Wakes <;> simp [hwakes, hheard]

theorem accepted_cleanup (h : ¬ c.Refused) (hconnect : c.connect = .ok) :
    c.wifiStaConnect.result.isSome = true → c.wifiStaConnect.held = {} := by
  rw [accepted_returned h, if_neg (by simp [hconnect])]
  by_cases hwakes : c.Wakes <;> simp [hwakes]

end

/-- A call is answered by the connection there is, and leaves nothing behind, exactly where
    it is refused before it registers anything, or the driver accepts it and a connection is
    heard of by the end of the wait if and only if there is one on the return. -/
theorem connect_outcome_iff (c : Call) :
    c.AsPromised ↔ c.Refused ∨ (c.connect = .ok ∧ (c.Heard ↔ c.Established)) := by
  by_cases hrefused : c.Refused
  · refine iff_of_true ?_ (Or.inl hrefused)
    obtain ⟨hresult, hheld⟩ := refused_returned hrefused
    exact ⟨iff_of_false hresult (not_established_of_refused hrefused), fun _ => hheld⟩
  · by_cases hconnect : c.connect = .ok
    · have hok := accepted_ok_iff hrefused hconnect
      constructor
      · intro h
        exact Or.inr ⟨hconnect, hok.symm.trans h.outcome⟩
      · intro h
        exact ⟨hok.trans (h.resolve_left hrefused).2, accepted_cleanup hrefused hconnect⟩
    · refine iff_of_false (not_cleanup_of_connect hrefused hconnect) ?_
      intro h
      exact hconnect (h.resolve_left hrefused).1

/-- The disconnection from the previous network comes late, and the connection behind it. -/
def lateDisconnection : Call where
  targetApSsid := cStr (ascii "Salute")
  targetApPassword := cStr kConfigPassword
  ip := none
  gateway := none
  netmask := none
  getApInfo := .ok
  before := [.staDisconnected]
  behind := [.staConnected (ascii "Salute"), .staGotIp]

/-- A connection that is there is reported as failed. -/
theorem a_late_disconnection_fails_the_connection : ¬ lateDisconnection.AsPromised := by
  intro h
  have hestablished : lateDisconnection.Established := by decide
  have hfailed : lateDisconnection.wifiStaConnect.result = some .fail := by decide
  rw [h.outcome.mpr hestablished] at hfailed
  cases hfailed

end Esp32Cam.Wifi.Connect
