/-
  Esp32Cam.Bdg.RuleMap — the routing rules as a map from a sender and a receiver.

  A rule is identified by its sender and receiver (`RuleTrigger`). `rule` reads the
  vector from its beginning for exactly this pair, and `RuleMap` is the map that is meant:
  adding inserts where there is none, removing takes the one away.

  - `reduce_linear`: after any operations the vector is strictly sorted, halving it comes
    where `find` looks, and reducing takes the sender's own rule, else that of the first
    alternative that has one.
  - `keyed_exactly_iff`: the operations are those of the map exactly as long as none is
    about a sender without a rule of its own one of whose alternatives has one, for
    adding and removing look for a rule as reducing does (`Exact`).
-/

import Esp32Cam.Lib.Run
import Esp32Cam.Bdg.RoutingRules

namespace Esp32Cam.Bdg.RoutingRules

open Esp32Cam.Lib

inductive Operation where
  | addStatic (origin intermediary reduction : EndpointVariant)
  | remove (origin intermediary : EndpointVariant)
  deriving DecidableEq, Repr

def step (r : RoutingRules) : Operation → RoutingRules
  | .addStatic o i x => (r.addStatic o i x).1
  | .remove o i => r.remove o i

def answer (r : RoutingRules) : Operation → Option Bool
  | .addStatic o i x => some (r.addStatic o i x).2
  | .remove _ _ => none

variable {r r' : RoutingRules} {o i x : EndpointVariant}

/-! ## Searching -/

theorem step_sorted (h : r.Sorted) (op : Operation) : (r.step op).Sorted := by
  cases op with
  | addStatic o i x => exact addStatic_sorted h x
  | remove o i => exact remove_sorted h

theorem run_sorted (ops : List Operation) : (run step {} ops).Sorted := by
  have hempty : Sorted {} := List.Pairwise.nil
  exact (always_of_step (I := Sorted) (fun _ op h => step_sorted h op) hempty ops).last

def rule (r : RoutingRules) (o i : EndpointVariant) : Option EndpointVariant :=
  (r.reductionRules.find? (·.ruleTrigger = ruleTrigger o i)).map ReductionRule.reductionVariant

/-- The sender's own rule, else that of its first alternative that has one. -/
def reduceLinear (r : RoutingRules) (o i : EndpointVariant) : Bool × EndpointVariant :=
  match (o :: o.asAlternative).findSome? (r.rule · i) with
  | some reduction => (true, reduction)
  | none => (false, o)

theorem rule_eq_some (h : r.Sorted) : r.rule o i = some x ↔ (o, i, x) ∈ r.rulesOf := by
  constructor
  · intro hrule
    obtain ⟨⟨trigger, reduction⟩, hfind, rfl⟩ := Option.map_eq_some_iff.mp hrule
    have htrigger := List.find?_some hfind
    obtain rfl : trigger = ruleTrigger o i := by simpa using htrigger
    exact List.mem_of_find?_eq_some hfind
  · intro hmem
    cases hfind : r.reductionRules.find? (·.ruleTrigger = ruleTrigger o i) with
    | none =>
      have hnone := List.find?_eq_none.mp hfind ⟨ruleTrigger o i, x⟩ hmem
      simp at hnone
    | some found =>
      have htrigger : found.ruleTrigger = ruleTrigger o i := by simpa using List.find?_some hfind
      have heq := SortedVector.eq_of_key_eq h (List.mem_of_find?_eq_some hfind) hmem htrigger
      rw [rule, hfind, heq]
      rfl

theorem rule_eq_lookup (h : r.Sorted) (o i : EndpointVariant) : r.rule o i = r.lookup o i := by
  apply Option.ext
  intro x
  exact (rule_eq_some h).trans (lookup_eq_some h).symm

theorem rule_eq_none (h : r.Sorted) : r.rule o i = none ↔ ¬ r.Ruled o i := by
  rw [rule_eq_lookup h]
  exact lookup_eq_none h

structure LinearlyReduces (r : RoutingRules) : Prop where
  sorted : r.Sorted
  bisect : ∀ t, SortedVector.bisect ReductionRule.ruleTrigger r.reductionRules t =
    SortedVector.lowerBound ReductionRule.ruleTrigger r.reductionRules t
  reduce : ∀ o i, r.reduce o i = r.reduceLinear o i

/-- Throughout every sequence of operations reducing is the linear rule. -/
theorem reduce_linear (ops : List Operation) : LinearlyReduces (run step {} ops) := by
  have h := run_sorted ops
  refine ⟨h, SortedVector.bisect_eq_lowerBound h, ?_⟩
  intro o i
  rw [reduce_eq, reduceLinear, List.findSome?_cons, rule_eq_lookup h]
  have halternatives : o.asAlternative.findSome? (fun a => (run step {} ops).rule a i) =
      o.asAlternative.findSome? fun a => (run step {} ops).lookup a i :=
    findSome?_congr fun a _ => rule_eq_lookup h a i
  rw [halternatives]
  cases (run step {} ops).lookup o i with
  | none => rfl
  | some x => rfl

/-! ## The map -/

abbrev RuleMap := EndpointVariant × EndpointVariant → Option EndpointVariant

def mapStep (m : RuleMap) : Operation → RuleMap × Option Bool
  | .addStatic o i x => if m (o, i) = none then (Function.update m (o, i) (some x), some true) else (m, some false)
  | .remove o i => (Function.update m (o, i) none, none)

def toMap (r : RoutingRules) : RuleMap := fun t => r.rule t.1 t.2

def KeyedExactly (r : RoutingRules) (op : Operation) : Prop :=
  ((r.step op).toMap, r.answer op) = mapStep r.toMap op

def Operation.origin : Operation → EndpointVariant
  | .addStatic o _ _ => o
  | .remove o _ => o

def Operation.intermediary : Operation → EndpointVariant
  | .addStatic _ i _ => i
  | .remove _ i => i

/-- The pair has a rule, or none of the sender's alternatives has. -/
def Exact (r : RoutingRules) (op : Operation) : Prop :=
  r.rule op.origin op.intermediary = none → ∀ a ∈ op.origin.asAlternative, r.rule a op.intermediary = none

theorem find_eq_none (h : r.Sorted) :
    r.find o i = none ↔ r.rule o i = none ∧ ∀ a ∈ o.asAlternative, r.rule a i = none := by
  rw [find, Option.or_eq_none_iff, findDirect_eq_none h, rule_eq_none h, List.findSome?_eq_none_iff]
  refine and_congr_right fun _ => forall₂_congr fun a _ => ?_
  rw [findDirect_eq_none h, rule_eq_none h]

/-- A rule that is found is the sender's own, or one of an alternative of a sender without. -/
theorem find_some {it : Nat} (h : r.Sorted) (hfind : r.find o i = some it) :
    ∃ o' x, r.reductionRules[it]? = some ⟨ruleTrigger o' i, x⟩ ∧
      (o' = o ∨ r.rule o i = none ∧ o' ∈ o.asAlternative) := by
  cases hdirect : r.findDirect o i with
  | some it' =>
    rw [find, hdirect, Option.some_or] at hfind
    obtain rfl := Option.some_inj.mp hfind
    obtain ⟨x, hget⟩ := findDirect_some hdirect
    exact ⟨o, x, hget, Or.inl rfl⟩
  | none =>
    rw [find, hdirect, Option.none_or] at hfind
    obtain ⟨o', ho', hfind'⟩ := List.exists_of_findSome?_eq_some hfind
    obtain ⟨x, hget⟩ := findDirect_some hfind'
    exact ⟨o', x, hget, Or.inr ⟨(rule_eq_none h).mpr ((findDirect_eq_none h).mp hdirect), ho'⟩⟩

/-! ## What the operations make of the map -/

theorem addStatic_toMap (h : r.Sorted) (hfind : r.find o i = none) (x : EndpointVariant) :
    (r.addStatic o i x).1.toMap = Function.update r.toMap (o, i) (some x) := by
  have hnone := ((find_eq_none h).mp hfind).1
  have hsorted : (r.addStatic o i x).1.Sorted := addStatic_sorted h x
  funext ⟨o', i'⟩
  apply Option.ext
  intro y
  show (r.addStatic o i x).1.rule o' i' = some y ↔ _
  rw [rule_eq_some hsorted]
  have hmem : (o', i', y) ∈ (r.addStatic o i x).1.rulesOf ↔
      (o', i', y) = (o, i, x) ∨ (o', i', y) ∈ r.rulesOf := by
    unfold addStatic
    rw [hfind]
    simp only [rulesOf, Set.mem_ofPred_eq, SortedVector.mem_insert, ReductionRule.mk.injEq, Prod.mk.injEq, ruleTrigger,
      toLex_inj, and_assoc]
  rw [hmem]
  by_cases hpair : (o', i') = (o, i)
  · obtain ⟨rfl, rfl⟩ := Prod.mk.inj hpair
    rw [Function.update_self, ← rule_eq_some h, hnone]
    simp [eq_comm]
  · rw [Function.update_of_ne hpair, ← rule_eq_some h]
    show _ ↔ r.rule o' i' = some y
    constructor
    · intro h
      rcases h with heq | hrule
      · obtain ⟨ho, hrest⟩ := Prod.mk.inj heq
        exact absurd (Prod.ext ho (Prod.mk.inj hrest).1) hpair
      · exact hrule
    · exact Or.inr

theorem eraseIdx_toMap (h : r.Sorted) {it : Nat} {x : EndpointVariant}
    (hget : r.reductionRules[it]? = some ⟨ruleTrigger o i, x⟩) :
    toMap ⟨r.reductionRules.eraseIdx it⟩ = Function.update r.toMap (o, i) none := by
  have hsorted : Sorted ⟨r.reductionRules.eraseIdx it⟩ := SortedVector.eraseIdx_sorted h it
  funext ⟨o', i'⟩
  apply Option.ext
  intro y
  show rule ⟨r.reductionRules.eraseIdx it⟩ o' i' = some y ↔ _
  rw [rule_eq_some hsorted]
  have hmem := SortedVector.mem_eraseIdx h hget (y := ⟨ruleTrigger o' i', y⟩)
  have hmem' : (o', i', y) ∈ rulesOf ⟨r.reductionRules.eraseIdx it⟩ ↔
      (o', i', y) ∈ r.rulesOf ∧ (o', i') ≠ (o, i) := by
    simpa [rulesOf, ruleTrigger] using hmem
  rw [hmem']
  by_cases hpair : (o', i') = (o, i)
  · rw [hpair, Function.update_self]
    simp
  · rw [Function.update_of_ne hpair, ← rule_eq_some h]
    exact and_iff_left hpair

theorem toMap_update_none (hnone : r.rule o i = none) : Function.update r.toMap (o, i) none = r.toMap := by
  rw [← hnone]
  exact Function.update_eq_self (o, i) r.toMap

theorem addStatic_keyedExactly_iff (h : r.Sorted) (x : EndpointVariant) :
    KeyedExactly r (.addStatic o i x) ↔ Exact r (.addStatic o i x) := by
  show ((r.addStatic o i x).1.toMap, some (r.addStatic o i x).2) =
    (if r.rule o i = none then _ else _) ↔ (r.rule o i = none → ∀ a ∈ o.asAlternative, r.rule a i = none)
  cases hfind : r.find o i with
  | none =>
    have hnone := (find_eq_none h).mp hfind
    have hanswer : (r.addStatic o i x).2 = true := by simp [addStatic, hfind]
    rw [if_pos hnone.1, addStatic_toMap h hfind, hanswer]
    exact iff_of_true rfl fun _ => hnone.2
  | some it =>
    have hsame : r.addStatic o i x = (r, false) := by simp [addStatic, hfind]
    rw [hsame]
    by_cases hrule : r.rule o i = none
    · rw [if_pos hrule]
      refine iff_of_false (fun heq => ?_) fun hexact => ?_
      · cases Option.some_inj.mp (congrArg Prod.snd heq)
      · rw [(find_eq_none h).mpr ⟨hrule, hexact hrule⟩] at hfind
        cases hfind
    · rw [if_neg hrule]
      exact iff_of_true rfl fun hnone => absurd hnone hrule

theorem remove_keyedExactly_iff (h : r.Sorted) : KeyedExactly r (.remove o i) ↔ Exact r (.remove o i) := by
  show ((r.remove o i).toMap, none) = (Function.update r.toMap (o, i) none, none) ↔
    (r.rule o i = none → ∀ a ∈ o.asAlternative, r.rule a i = none)
  rw [Prod.mk.injEq, and_iff_left rfl]
  cases hfind : r.find o i with
  | none =>
    have hnone := (find_eq_none h).mp hfind
    have hsame : r.remove o i = r := by simp [remove, hfind]
    rw [hsame, toMap_update_none hnone.1]
    exact iff_of_true rfl fun _ => hnone.2
  | some it =>
    have herased : r.remove o i = ⟨r.reductionRules.eraseIdx it⟩ := by simp [remove, hfind]
    obtain ⟨o', x, hget, rfl | ⟨hrule, ho'⟩⟩ := find_some h hfind
    · rw [herased, eraseIdx_toMap h hget]
      have hrule : r.rule o' i = some x := (rule_eq_some h).mpr (mem_rulesOf_of_getElem hget)
      exact iff_of_true rfl fun hnone => by rw [hrule] at hnone; cases hnone
    · rw [herased, eraseIdx_toMap h hget, toMap_update_none hrule]
      have hruled : r.rule o' i = some x := (rule_eq_some h).mpr (mem_rulesOf_of_getElem hget)
      refine iff_of_false (fun heq => ?_) fun hexact => ?_
      · -- the alternative's rule is gone
        have hgone : none = r.rule o' i := by
          rw [← Function.update_self (o', i) none r.toMap]
          exact congrFun heq (o', i)
        rw [hruled] at hgone
        cases hgone
      · rw [hexact hrule o' ho'] at hruled
        cases hruled

/-- The rules are keyed by exactly their sender and receiver throughout a sequence of
    operations, exactly when each of them finds a rule of its own pair or none at all. -/
theorem keyed_exactly_iff (ops : List Operation) : Along step KeyedExactly {} ops ↔ Along step Exact {} ops := by
  have hempty : Sorted {} := List.Pairwise.nil
  refine along_iff (I := Sorted) (fun _ op h => step_sorted h op) ?_ hempty
  intro r op h
  cases op with
  | addStatic o i x => exact addStatic_keyedExactly_iff h x
  | remove o i => exact remove_keyedExactly_iff h

/-- A sender on a port is refused its rule for the port's, and takes the port's rule away. -/
theorem a_rule_of_the_port_stands_for_the_senders :
    ¬ Along step KeyedExactly {} [.addStatic (.udpPort 8001) (.uartEndpoint 0) (.named .none),
      .addStatic (.udpEndpoint ⟨.v4 #v[192, 168, 4, 2], 14550⟩ 8001) (.uartEndpoint 0) (.named .mavlink)] ∧
    ¬ Along step KeyedExactly {} [.addStatic (.udpPort 8001) (.uartEndpoint 0) (.named .none),
      .remove (.udpEndpoint ⟨.v4 #v[192, 168, 4, 2], 14550⟩ 8001) (.uartEndpoint 0)] := by
  constructor
  · intro h
    have hrefused : some false = some true := congrArg Prod.snd h.2.1
    cases hrefused
  · intro h
    have hgone : none = some (EndpointVariant.named .none) :=
      congrFun (congrArg Prod.fst h.2.1) (EndpointVariant.udpPort 8001, EndpointVariant.uartEndpoint 0)
    cases hgone

end Esp32Cam.Bdg.RoutingRules
