/-
  Esp32Cam.Bdg.RoutingRules — the rules that say which receiver is notified of what.

  A rule names a sender, a receiver and the endpoint that replaces the sender behind it.
  The rules stand in a vector sorted by sender and receiver; `find` bisects it for the
  pair, then for the pairs of the sender's alternatives.

  - `rulesOf`: what the vector says as a set of pairs; `addStatic_rulesOf` and
    `remove_rulesOf` are what the two operations make of it.
  - `reduce_endpoint`: where the receiver is ruled for ports only, a pair of a sender
    and a port reduces as the port does.

  `MavlinkRouting` installs the rules the bridge starts with.
-/

import Mathlib.Data.Prod.Lex
import Mathlib.Data.Set.Insert
import Esp32Cam.Lib.SortedVector
import Esp32Cam.Bdg.EndpointVariant

namespace Esp32Cam.Bdg

open Esp32Cam.Lib

/-- `std::tuple` of a sender and a receiver, compared in this order. -/
abbrev RuleTrigger := EndpointVariant ×ₗ EndpointVariant

def ruleTrigger (origin intermediary : EndpointVariant) : RuleTrigger := toLex (origin, intermediary)

structure ReductionRule where
  ruleTrigger : RuleTrigger
  reductionVariant : EndpointVariant
  deriving DecidableEq

structure RoutingRules where
  reductionRules : List ReductionRule := []
  deriving DecidableEq

namespace RoutingRules

def findDirect (r : RoutingRules) (aOrigin aIntermediary : EndpointVariant) : Option Nat :=
  SortedVector.find ReductionRule.ruleTrigger r.reductionRules (ruleTrigger aOrigin aIntermediary)

/-- An alternative has no alternatives of its own: the recursion of the source ends with it (`find_eq`). -/
def find (r : RoutingRules) (aOrigin aIntermediary : EndpointVariant) : Option Nat :=
  (r.findDirect aOrigin aIntermediary).or
    (aOrigin.asAlternative.findSome? fun alternative => r.findDirect alternative aIntermediary)

def addStatic (r : RoutingRules) (aOrigin aIntermediary aReduce : EndpointVariant) : RoutingRules × Bool :=
  match r.find aOrigin aIntermediary with
  | none =>
    let reductionRule : ReductionRule := ⟨ruleTrigger aOrigin aIntermediary, aReduce⟩
    (⟨SortedVector.insert ReductionRule.ruleTrigger r.reductionRules reductionRule⟩, true)
  | some _ => (r, false)

def remove (r : RoutingRules) (aOrigin aIntermediary : EndpointVariant) : RoutingRules :=
  match r.find aOrigin aIntermediary with
  | some it => ⟨r.reductionRules.eraseIdx it⟩
  | none => r

/-- Whether a rule has been found, and what is left in `aoSrc`. -/
def reduce (r : RoutingRules) (aoSrc aCandidate : EndpointVariant) : Bool × EndpointVariant :=
  match (r.find aoSrc aCandidate).bind (r.reductionRules[·]?) with
  | some rule => (true, rule.reductionVariant)
  | none => (false, aoSrc)

theorem find_of_no_alternative (r : RoutingRules) {aOrigin : EndpointVariant} (h : aOrigin.asAlternative = [])
    (aIntermediary : EndpointVariant) : r.find aOrigin aIntermediary = r.findDirect aOrigin aIntermediary := by
  rw [find, h, List.findSome?_nil, Option.or_none]

theorem findSome?_congr {α β : Type} {f g : α → Option β} {xs : List α} (h : ∀ x ∈ xs, f x = g x) :
    xs.findSome? f = xs.findSome? g := by
  induction xs with
  | nil => rfl
  | cons x xs ih =>
    obtain ⟨hx, hxs⟩ := List.forall_mem_cons.mp h
    rw [List.findSome?_cons, List.findSome?_cons, hx, ih hxs]

/-- The search as the source writes it, with itself for the alternatives. -/
theorem find_eq (r : RoutingRules) (aOrigin aIntermediary : EndpointVariant) :
    r.find aOrigin aIntermediary = (r.findDirect aOrigin aIntermediary).or
      (aOrigin.asAlternative.findSome? fun alternative => r.find alternative aIntermediary) := by
  rw [find]
  congr 1
  refine findSome?_congr fun alternative h => ?_
  rw [find_of_no_alternative r (EndpointVariant.asAlternative_of_mem h)]

/-! ## The rules as a set -/

/-- No two rules of one sender and receiver. -/
def Sorted (r : RoutingRules) : Prop := SortedVector.Sorted ReductionRule.ruleTrigger r.reductionRules

def rulesOf (r : RoutingRules) : Set (EndpointVariant × EndpointVariant × EndpointVariant) :=
  { t | ⟨ruleTrigger t.1 t.2.1, t.2.2⟩ ∈ r.reductionRules }

def Ruled (r : RoutingRules) (origin intermediary : EndpointVariant) : Prop :=
  ∃ reduction, (origin, intermediary, reduction) ∈ r.rulesOf

variable {r : RoutingRules} {o i : EndpointVariant}

theorem ruled_iff : r.Ruled o i ↔ ∃ rule ∈ r.reductionRules, rule.ruleTrigger = ruleTrigger o i := by
  constructor
  · intro h
    rcases h with ⟨reduction, h⟩
    exact ⟨_, h, rfl⟩
  · intro h
    rcases h with ⟨⟨trigger, reduction⟩, hmem, rfl⟩
    exact ⟨reduction, hmem⟩

theorem findDirect_eq_none (h : r.Sorted) : r.findDirect o i = none ↔ ¬ r.Ruled o i := by
  rw [findDirect, SortedVector.find_eq_none h, ruled_iff]
  simp

theorem findDirect_some {it : Nat} (h : r.findDirect o i = some it) :
    ∃ reduction, r.reductionRules[it]? = some ⟨ruleTrigger o i, reduction⟩ := by
  obtain ⟨⟨trigger, reduction⟩, hget, rfl⟩ := SortedVector.find_some h
  exact ⟨reduction, hget⟩

theorem mem_rulesOf_of_getElem {it : Nat} {reduction : EndpointVariant}
    (h : r.reductionRules[it]? = some ⟨ruleTrigger o i, reduction⟩) : (o, i, reduction) ∈ r.rulesOf :=
  List.mem_of_getElem? h

/-! ## The operations on a sender without alternatives -/

theorem addStatic_sorted (h : r.Sorted) (aReduce : EndpointVariant) : (r.addStatic o i aReduce).1.Sorted := by
  unfold addStatic
  split
  · rename_i hfind
    have hdirect : r.findDirect o i = none := (Option.or_eq_none_iff.mp hfind).1
    refine SortedVector.insert_sorted h fun rule hmem heq => ?_
    exact (findDirect_eq_none h).mp hdirect (ruled_iff.mpr ⟨rule, hmem, heq⟩)
  · exact h

theorem addStatic_rulesOf (h : r.Sorted) (ho : o.asAlternative = []) (aReduce : EndpointVariant) :
    (r.Ruled o i → (r.addStatic o i aReduce).1 = r) ∧
    (¬ r.Ruled o i → (r.addStatic o i aReduce).1.rulesOf = insert (o, i, aReduce) r.rulesOf) := by
  unfold addStatic
  rw [find_of_no_alternative r ho]
  constructor
  · intro hruled
    split
    · rename_i hfind
      exact absurd hruled ((findDirect_eq_none h).mp hfind)
    · rfl
  · intro hnew
    rw [(findDirect_eq_none h).mpr hnew]
    ext ⟨o', i', reduction'⟩
    simp only [rulesOf, Set.mem_ofPred_eq, SortedVector.mem_insert, ReductionRule.mk.injEq, Set.mem_insert_iff,
      Prod.mk.injEq, ruleTrigger, toLex_inj, and_assoc]

/-- No other rule is added. -/
theorem addStatic_subset (aReduce : EndpointVariant) :
    (r.addStatic o i aReduce).1.rulesOf ⊆ insert (o, i, aReduce) r.rulesOf := by
  unfold addStatic
  split
  · intro t ht
    rcases SortedVector.mem_insert.mp ht with heq | ht
    · have htrigger := toLex_inj.mp (congrArg ReductionRule.ruleTrigger heq)
      obtain ⟨ho, hi⟩ := Prod.mk.inj htrigger
      exact Or.inl (Prod.ext ho (Prod.ext hi (congrArg ReductionRule.reductionVariant heq)))
    · exact Or.inr ht
  · exact Set.subset_insert _ _

theorem remove_sorted (h : r.Sorted) : (r.remove o i).Sorted := by
  unfold remove
  split
  · exact SortedVector.eraseIdx_sorted h _
  · exact h

theorem remove_rulesOf (h : r.Sorted) (ho : o.asAlternative = []) :
    (r.remove o i).rulesOf = { t ∈ r.rulesOf | (t.1, t.2.1) ≠ (o, i) } := by
  unfold remove
  rw [find_of_no_alternative r ho]
  ext ⟨o', i', reduction'⟩
  split
  · rename_i it hfind
    obtain ⟨reduction, hget⟩ := findDirect_some hfind
    have := SortedVector.mem_eraseIdx h hget (y := ⟨ruleTrigger o' i', reduction'⟩)
    simpa [rulesOf, ruleTrigger] using this
  · rename_i hfind
    have hnew := (findDirect_eq_none h).mp hfind
    refine (and_iff_left_of_imp fun hmem heq => hnew ?_).symm
    obtain ⟨rfl, rfl⟩ := Prod.mk.inj heq
    exact ⟨reduction', hmem⟩

/-! ## Reduction -/

def lookup (r : RoutingRules) (origin intermediary : EndpointVariant) : Option EndpointVariant :=
  ((r.findDirect origin intermediary).bind (r.reductionRules[·]?)).map ReductionRule.reductionVariant

theorem lookup_eq_some (h : r.Sorted) {x : EndpointVariant} : r.lookup o i = some x ↔ (o, i, x) ∈ r.rulesOf := by
  constructor
  · intro hx
    obtain ⟨rule, hrule, rfl⟩ := Option.map_eq_some_iff.mp hx
    obtain ⟨it, hfind, hget⟩ := Option.bind_eq_some_iff.mp hrule
    obtain ⟨reduction, hget'⟩ := findDirect_some hfind
    obtain rfl := Option.some_inj.mp (hget.symm.trans hget')
    exact mem_rulesOf_of_getElem hget
  · intro hx
    cases hfind : r.findDirect o i with
    | none => exact absurd ⟨x, hx⟩ ((findDirect_eq_none h).mp hfind)
    | some it =>
      obtain ⟨reduction, hget⟩ := findDirect_some hfind
      have heq := SortedVector.eq_of_key_eq h hx (List.mem_of_getElem? hget) rfl
      rw [lookup, hfind, Option.bind_some, hget, ← heq]
      rfl

theorem lookup_eq_none (h : r.Sorted) : r.lookup o i = none ↔ ¬ r.Ruled o i := by
  rw [Option.eq_none_iff_forall_ne_some, Ruled, not_exists]
  simp only [ne_eq, lookup_eq_some h]

theorem bind_or {α β : Type} {g : α → Option β} (a b : Option α) (h : ∀ x, a = some x → (g x).isSome = true) :
    (a.or b).bind g = (a.bind g).or (b.bind g) := by
  cases a with
  | none => rfl
  | some x =>
    obtain ⟨y, hy⟩ := Option.isSome_iff_exists.mp (h x rfl)
    simp [hy]

theorem findSome?_bind {α β γ : Type} {f : α → Option β} {g : β → Option γ} (xs : List α)
    (h : ∀ x y, f x = some y → (g y).isSome = true) :
    (xs.findSome? f).bind g = xs.findSome? fun x => (f x).bind g := by
  induction xs with
  | nil => rfl
  | cons x xs ih =>
    rw [List.findSome?_cons, List.findSome?_cons]
    cases hf : f x with
    | none => exact ih
    | some y =>
      obtain ⟨z, hz⟩ := Option.isSome_iff_exists.mp (h x y hf)
      simp [hz]

/-- `reduce` is the linear rule: the sender's own rule, else that of its first alternative that has one. -/
theorem reduce_eq (r : RoutingRules) (o i : EndpointVariant) : r.reduce o i =
    match (r.lookup o i).or (o.asAlternative.findSome? fun alternative => r.lookup alternative i) with
    | some reduction => (true, reduction)
    | none => (false, o) := by
  let g := fun it : Nat => (r.reductionRules[it]?).map ReductionRule.reductionVariant
  have hg : ∀ o' it, r.findDirect o' i = some it → (g it).isSome = true := by
    intro o' it hfind
    obtain ⟨reduction, hget⟩ := findDirect_some hfind
    simp only [g, hget, Option.map_some, Option.isSome_some]
  have hlookup : ∀ o', r.lookup o' i = (r.findDirect o' i).bind g := fun o' => Option.map_bind
  have hfind : ((r.find o i).bind (r.reductionRules[·]?)).map ReductionRule.reductionVariant =
      (r.lookup o i).or (o.asAlternative.findSome? fun alternative => r.lookup alternative i) := by
    simp only [hlookup, Option.map_bind]
    rw [← findSome?_bind _ hg, ← bind_or _ _ (hg o)]
    rfl
  rw [← hfind, reduce]
  cases (r.find o i).bind (r.reductionRules[·]?) <;> rfl

def PortsOnly (r : RoutingRules) (candidate : EndpointVariant) : Prop :=
  ∀ o x, (o, candidate, x) ∈ r.rulesOf → ∃ port, o = .tcpPort port ∨ o = .udpPort port

theorem PortsOnly.lookup (h : r.PortsOnly i) (hs : r.Sorted) (htcp : ∀ port, o ≠ .tcpPort port)
    (hudp : ∀ port, o ≠ .udpPort port) : r.lookup o i = none := by
  rw [lookup_eq_none hs]
  intro h
  rcases h with ⟨x, hx⟩
  obtain ⟨port, rfl | rfl⟩ := h o x hx
  · exact htcp port rfl
  · exact hudp port rfl

theorem reduce_tcpEndpoint (hs : r.Sorted) (h : r.PortsOnly i) (a : Asio.Endpoint) (port : UInt16)
    (x : EndpointVariant) : r.reduce (.tcpEndpoint a port) i = (true, x) ↔ (.tcpPort port, i, x) ∈ r.rulesOf := by
  have h₁ := h.lookup hs (o := .tcpEndpoint a port) nofun nofun
  have h₂ := h.lookup hs (o := .tcp a) nofun nofun
  rw [reduce_eq, ← lookup_eq_some hs, h₁, Option.none_or, EndpointVariant.asAlternative, List.findSome?_cons, h₂]
  simp only [List.findSome?_cons, List.findSome?_nil]
  cases r.lookup (.tcpPort port) i <;> simp

theorem reduce_udpEndpoint (hs : r.Sorted) (h : r.PortsOnly i) (a : Asio.Endpoint) (port : UInt16)
    (x : EndpointVariant) : r.reduce (.udpEndpoint a port) i = (true, x) ↔ (.udpPort port, i, x) ∈ r.rulesOf := by
  have h₁ := h.lookup hs (o := .udpEndpoint a port) nofun nofun
  have h₂ := h.lookup hs (o := .udp a) nofun nofun
  rw [reduce_eq, ← lookup_eq_some hs, h₁, Option.none_or, EndpointVariant.asAlternative, List.findSome?_cons, h₂]
  simp only [List.findSome?_cons, List.findSome?_nil]
  cases r.lookup (.udpPort port) i <;> simp

end RoutingRules

/-! ## The rules the bridge starts with -/

namespace MavlinkRouting

def getMavlinkUdpPort : UInt16 := 8001
def getMavlinkUartNum : UInt8 := 0

/-- `uartMavlinkProcess` and `udpMavlinkProcess` are the two options of the configuration. -/
def kStaticRoutingRules (uartMavlinkProcess udpMavlinkProcess : Bool) :
    List (EndpointVariant × EndpointVariant × EndpointVariant) :=
  let uart : List (EndpointVariant × EndpointVariant × EndpointVariant) :=
    if uartMavlinkProcess then
      [(.uartEndpoint getMavlinkUartNum, .named .mavlink, .named .uartMavlinkForwarded),
        (.named .uartMavlinkForwarded, .udpPort getMavlinkUdpPort, .named .none)]
    else [(.uartEndpoint getMavlinkUartNum, .udpPort getMavlinkUdpPort, .named .none)]
  let udp : List (EndpointVariant × EndpointVariant × EndpointVariant) :=
    if udpMavlinkProcess then
      [(.udpPort getMavlinkUdpPort, .named .mavlink, .named .udpMavlinkForwarded),
        (.named .udpMavlinkForwarded, .uartEndpoint getMavlinkUartNum, .named .none)]
    else [(.udpPort getMavlinkUdpPort, .uartEndpoint getMavlinkUartNum, .named .none)]
  let always : List (EndpointVariant × EndpointVariant × EndpointVariant) :=
    [(.udpPort getMavlinkUdpPort, .udpHook getMavlinkUdpPort, .named .none),
      (.named .mavlinkIpPackForwarded, .uartEndpoint getMavlinkUartNum, .named .none),
      (.named .mavlink, .uartEndpoint getMavlinkUartNum, .named .none),
      (.named .mavlink, .udpPort getMavlinkUdpPort, .named .none)]
  uart ++ udp ++ always

def init (uartMavlinkProcess udpMavlinkProcess : Bool) : RoutingRules :=
  (kStaticRoutingRules uartMavlinkProcess udpMavlinkProcess).foldl (fun r (o, i, x) => (r.addStatic o i x).1) {}

theorem init_sorted (uartMavlinkProcess udpMavlinkProcess : Bool) : (init uartMavlinkProcess udpMavlinkProcess).Sorted := by
  unfold init
  suffices h : ∀ (rules : List (EndpointVariant × EndpointVariant × EndpointVariant)) (r : RoutingRules), r.Sorted →
      (rules.foldl (fun r (o, i, x) => (r.addStatic o i x).1) r).Sorted from h _ _ List.Pairwise.nil
  intro rules
  induction rules with
  | nil => exact fun r hr => hr
  | cons rule rules ih => exact fun r hr => ih _ (RoutingRules.addStatic_sorted hr _)

/-- The rules are the static ones. -/
theorem init_subset (uartMavlinkProcess udpMavlinkProcess : Bool) {t : EndpointVariant × EndpointVariant × EndpointVariant}
    (h : t ∈ (init uartMavlinkProcess udpMavlinkProcess).rulesOf) :
    t ∈ kStaticRoutingRules uartMavlinkProcess udpMavlinkProcess := by
  unfold init at h
  suffices hgen : ∀ (rules : List (EndpointVariant × EndpointVariant × EndpointVariant)) (r : RoutingRules),
      t ∈ (rules.foldl (fun r (o, i, x) => (r.addStatic o i x).1) r).rulesOf → t ∈ r.rulesOf ∨ t ∈ rules by
    rcases hgen _ _ h with hempty | hmem
    · cases hempty
    · exact hmem
  intro rules
  induction rules with
  | nil => exact fun r hr => Or.inl hr
  | cons rule rules ih =>
    intro r hr
    rcases ih _ hr with hr | hr
    · rcases RoutingRules.addStatic_subset _ hr with rfl | hr
      · exact Or.inr List.mem_cons_self
      · exact Or.inl hr
    · exact Or.inr (List.mem_cons_of_mem _ hr)

end MavlinkRouting

end Esp32Cam.Bdg
