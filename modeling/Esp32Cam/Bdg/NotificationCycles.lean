/-
  Esp32Cam.Bdg.NotificationCycles — when the nested notification cycles come to an end.

  A cycle nests as long as the endpoint it reduces to is the sender of another rule, and
  a receiver is visited again as long as it slices. `cycle_ends`: where every rule leads
  down a rank, the cycle of a sender ends within `rank + 1` cycles nested in each other,
  though the rules change and the receivers do what they will with their own state.

  The receivers are `logged`: each of their visits is a `Delivery`. `logged_cycle_ends`
  says where they go: along the rules, from the sender the first cycle is of.
-/

import Mathlib.Logic.Relation
import Mathlib.Order.Filter.AtTopBot.Basic
import Esp32Cam.Bdg.Receiver

namespace Esp32Cam.Bdg

open Esp32Cam.Ut.Cont Filter

/-- The receiver does not touch the buffer. -/
def Leaves {σ ε ρ : Type} (r : Receiver σ ε ρ) : Prop := ∀ world ctx, (r.onReceive world ctx).2.2 = ctx.buffer

/-- What the cycles rest on: `Rule` are the rules there can be, `From` the senders they lead
    to, and `Inv` is what the visits keep of the world. -/
structure Layered {σ ε ρ : Type} (instances : List (Receiver σ ε ρ)) (reduce : σ → ε → ε → Option ε)
    (Rule : ε → ε → ε → Prop) (From : ε → Prop) (Inv : σ → Prop) : Prop where
  buffer : ∀ r ∈ instances, Slices r ∨ Leaves r
  rule : ∀ world o i x, Inv world → reduce world o i = some x → Rule o i x
  next : ∀ o i x, From o → Rule o i x → From x
  receive : ∀ r ∈ instances, ∀ world (ctx : NotifyCtx ε ρ) x, Inv world → From ctx.endpointVariant →
    Rule ctx.endpointVariant r.endpointVariant x → Inv (r.onReceive world ctx).1

section
variable {σ ε ρ : Type} {Inv : σ → Prop}

/-- Enough visits, and the computation comes to `world`, whatever is granted on top of them. -/
def Ends (computation : Nat → Option σ) (world : σ) : Prop := ∀ᶠ visits in atTop, computation visits = some world

/-! ## A receiver -/

variable {cycle : Nat → σ → NotifyCtx ε ρ → Option σ} {r : Receiver σ ε ρ} {ctx : NotifyCtx ε ρ} {reduced : ε}

def CyclesEnd (Inv : σ → Prop) (cycle : Nat → σ → NotifyCtx ε ρ → Option σ) (reduced : ε) : Prop :=
  ∀ world next, Inv world → next.endpointVariant = reduced → ∃ world', Inv world' ∧ Ends (cycle · world next) world'

def Keeps (Inv : σ → Prop) (r : Receiver σ ε ρ) (ctx : NotifyCtx ε ρ) : Prop :=
  ∀ world buffer, Inv world → Inv (r.onReceive world { ctx with buffer }).1

theorem visit_ends (hcycle : CyclesEnd Inv cycle reduced) (hr : Keeps Inv r ctx) {l : Loop σ ε ρ} (hl : Inv l.world) :
    ∃ l', Inv l'.world ∧ ∀ᶠ n in atTop, visit (cycle n) r ctx reduced l = some l' := by
  have hworld := hr l.world l.bufferSlice hl
  unfold visit
  rcases hret : r.onReceive l.world { ctx with buffer := l.bufferSlice } with ⟨world, forwards, left⟩
  rw [hret] at hworld
  dsimp only at hworld ⊢
  rw [foldl_forwardCb]
  dsimp only
  split
  · obtain ⟨world', hinv, hends⟩ := hcycle world ⟨reduced, (forwards.getLast?.map ForwardCtx.buffer).getD l.outBuffer,
      (forwards.getLast?.map ForwardCtx.respondCb).getD l.outRespondCb⟩ hworld rfl
    refine ⟨_, ?_, hends.mono fun n hn => congrArg _ hn⟩
    exact hinv
  · exact ⟨_, hworld, Eventually.of_forall fun n => rfl⟩

/-- A slicing receiver is visited until the buffer is empty: its size is what the visits use up. -/
theorem revisit_ends (hcycle : CyclesEnd Inv cycle reduced) (hr : Keeps Inv r ctx) (hslices : Slices r) (size : Nat) :
    ∀ l : Loop σ ε ρ, l.bufferSlice.size = size → Sliced ctx l → Inv l.world →
      ∃ l', Inv l'.world ∧ ∀ᶠ n in atTop, ∀ fuel, size < fuel → revisit (cycle n) r ctx reduced fuel l = some l' := by
  induction size using Nat.strong_induction_on with
  | _ size ih =>
    intro l hsize hsliced hl
    obtain ⟨l₁, hl₁, hvisit⟩ := visit_ends hcycle hr hl
    obtain ⟨n₀, hn₀⟩ := hvisit.exists
    obtain ⟨hsliced₁, -, hlt⟩ := visit_sliced hslices hsliced hn₀
    by_cases hmore : l₁.continues ctx = true
    · have hpos : 0 < l₁.bufferSlice.size := by
        simp only [Loop.continues, Bool.and_eq_true, decide_eq_true_eq] at hmore
        exact hmore.1
      have hless : l₁.bufferSlice.size < size := by
        obtain ⟨-, hle, -⟩ := visit_sliced hslices hsliced hn₀
        have := hlt (by omega)
        omega
      obtain ⟨l₂, hl₂, hrest⟩ := ih l₁.bufferSlice.size hless l₁ rfl hsliced₁ hl₁
      refine ⟨l₂, hl₂, ?_⟩
      filter_upwards [hvisit, hrest] with n hn hrest fuel hfuel
      obtain ⟨fuel, rfl⟩ := Nat.exists_eq_add_of_lt hfuel
      show revisit (cycle n) r ctx reduced (size + fuel + 1) l = some l₂
      rw [revisit, hn, Option.bind_some, if_pos hmore]
      exact hrest _ (by omega)
    · refine ⟨l₁, hl₁, hvisit.mono fun n hn fuel hfuel => ?_⟩
      obtain ⟨fuel, rfl⟩ := Nat.exists_eq_add_of_lt hfuel
      show revisit (cycle n) r ctx reduced (size + fuel + 1) l = some l₁
      rw [revisit, hn, Option.bind_some, if_neg hmore]

theorem notifyReceiver_ends (hcycle : CyclesEnd Inv cycle reduced) (hr : Keeps Inv r ctx)
    (hbuffer : Slices r ∨ Leaves r) {world : σ} (hworld : Inv world) :
    ∃ world', Inv world' ∧ Ends (fun n => (notifyReceiver (cycle n) n r ctx reduced world).map Loop.world) world' := by
  rcases hbuffer with hslices | hleaves
  · obtain ⟨l, hl, hends⟩ := revisit_ends hcycle hr hslices _
      ⟨world, ctx.buffer, false, ctx.buffer, ctx.respondCb, []⟩ rfl ⟨rfl, rfl⟩ hworld
    refine ⟨l.world, hl, ?_⟩
    filter_upwards [hends, eventually_gt_atTop ctx.buffer.size] with n hn hsize
    rw [notifyReceiver, hn n hsize]
    rfl
  · -- the address is still that of the buffer: there is no second visit
    obtain ⟨l, hl, hends⟩ := visit_ends hcycle hr
      (l := ⟨world, ctx.buffer, false, ctx.buffer, ctx.respondCb, []⟩) hworld
    refine ⟨l.world, hl, ?_⟩
    filter_upwards [hends, eventually_gt_atTop 0] with n hn hpos
    obtain ⟨v, hv⟩ := visit_visited hn
    have hdata : l.bufferSlice = ctx.buffer := hv.left.symm.trans (hv.sliced.trans (hleaves _ _))
    have hstop : ¬ l.continues ctx = true := by
      rw [Loop.continues, hdata, bne_self_eq_false, Bool.and_false]
      exact Bool.false_ne_true
    obtain ⟨n, rfl⟩ := Nat.exists_eq_add_of_lt hpos
    rw [notifyReceiver, revisit, hn, Option.bind_some, if_neg hstop]
    rfl

/-! ## The cycle -/

theorem foldlM_ends {α : Type} (f : Nat → σ → α → Option σ) (xs : List α)
    (h : ∀ x ∈ xs, ∀ world, Inv world → ∃ world', Inv world' ∧ Ends (f · world x) world') :
    ∀ world, Inv world → ∃ world', Inv world' ∧ Ends (fun n => xs.foldlM (f n) world) world' := by
  induction xs with
  | nil => exact fun world hworld => ⟨world, hworld, Eventually.of_forall fun n => rfl⟩
  | cons x xs ih =>
    intro world hworld
    obtain ⟨hx, hxs⟩ := List.forall_mem_cons.mp h
    obtain ⟨w₁, hw₁, hends₁⟩ := hx world hworld
    obtain ⟨w₂, hw₂, hends₂⟩ := ih hxs w₁ hw₁
    refine ⟨w₂, hw₂, ?_⟩
    filter_upwards [hends₁, hends₂] with n hn₁ hn₂
    rw [List.foldlM_cons, hn₁]
    exact hn₂

variable {instances : List (Receiver σ ε ρ)} {reduce : σ → ε → ε → Option ε} {Rule : ε → ε → ε → Prop}
variable {From : ε → Prop} {rank : ε → Nat}

/-- A cycle ends, nested as deep as the rank of its sender. -/
theorem cycle_ends (h : Layered instances reduce Rule From Inv) (hrank : ∀ o i x, Rule o i x → rank x < rank o)
    (depth : Nat) : ∀ world ctx, Inv world → From ctx.endpointVariant → rank ctx.endpointVariant < depth →
      ∃ world', Inv world' ∧ Ends (fun n => notifyAsImpl instances reduce n depth world ctx) world' := by
  induction depth with
  | zero => intro world ctx _ _ hdepth; omega
  | succ depth ih =>
    intro world ctx hworld hfrom hdepth
    refine foldlM_ends _ instances (fun r hr world hworld => ?_) world hworld
    cases hreduce : reduce world ctx.endpointVariant r.endpointVariant with
    | none => exact ⟨world, hworld, Eventually.of_forall fun n => rfl⟩
    | some reduced =>
      have hrule := h.rule _ _ _ _ hworld hreduce
      refine notifyReceiver_ends ?_ ?_ (h.buffer r hr) hworld
      · intro world next hworld hnext
        have hlower := hrank _ _ _ hrule
        apply ih world next hworld
        · rw [hnext]
          exact h.next _ _ _ hfrom hrule
        · rw [hnext]
          omega
      · exact fun world buffer hworld => h.receive r hr world { ctx with buffer } reduced hworld hfrom hrule

end

/-! ## Deliveries -/

/-- A visit to a receiver, under the sender of the cycle it is visited in. -/
structure Delivery (ε : Type) where
  origin : ε
  receiver : ε
  buffer : ConstBuffer
  deriving DecidableEq, Repr

section
variable {σ ε ρ : Type}

/-- The receiver, with a log of its visits beside the world. -/
def Receiver.logged (r : Receiver σ ε ρ) : Receiver (σ × List (Delivery ε)) ε ρ where
  endpointVariant := r.endpointVariant
  onReceive s ctx :=
    let (world, forwards, left) := r.onReceive s.1 ctx
    ((world, s.2 ++ [⟨ctx.endpointVariant, r.endpointVariant, ctx.buffer⟩]), forwards, left)

theorem logged_onReceive (r : Receiver σ ε ρ) (s : σ × List (Delivery ε)) (ctx : NotifyCtx ε ρ) :
    r.logged.onReceive s ctx =
      (((r.onReceive s.1 ctx).1, s.2 ++ [⟨ctx.endpointVariant, r.endpointVariant, ctx.buffer⟩]),
        (r.onReceive s.1 ctx).2) := rfl

def Loop.bare (l : Loop (σ × List (Delivery ε)) ε ρ) : Loop σ ε ρ := { l with world := l.world.1 }

section
variable {cycle : σ → NotifyCtx ε ρ → Option σ} {r : Receiver σ ε ρ} {ctx : NotifyCtx ε ρ} {reduced : ε}
variable {logged : σ × List (Delivery ε) → NotifyCtx ε ρ → Option (σ × List (Delivery ε))}

theorem visit_logged (hcycle : ∀ s next, (logged s next).map Prod.fst = cycle s.1 next)
    (l : Loop (σ × List (Delivery ε)) ε ρ) :
    (visit logged r.logged ctx reduced l).map Loop.bare = visit cycle r ctx reduced l.bare := by
  rcases hret : r.onReceive l.world.1 { ctx with buffer := l.bufferSlice } with ⟨world, forwards, left⟩
  have hbare : r.onReceive l.bare.world { ctx with buffer := l.bare.bufferSlice } = (world, forwards, left) := hret
  unfold visit
  rw [logged_onReceive, hret, hbare]
  simp only [foldl_forwardCb]
  by_cases hforwarded : (l.forwarded || !forwards.isEmpty) = true
  · have hforwarded' : (l.bare.forwarded || !forwards.isEmpty) = true := hforwarded
    rw [if_pos hforwarded, if_pos hforwarded',
      ← hcycle (world, l.world.2 ++ [⟨ctx.endpointVariant, r.endpointVariant, l.bufferSlice⟩]), Option.map_map,
      Option.map_map]
    rfl
  · have hforwarded' : ¬ (l.bare.forwarded || !forwards.isEmpty) = true := hforwarded
    rw [if_neg hforwarded, if_neg hforwarded']
    rfl

theorem revisit_logged (hcycle : ∀ s next, (logged s next).map Prod.fst = cycle s.1 next) (fuel : Nat) :
    ∀ l : Loop (σ × List (Delivery ε)) ε ρ,
      (revisit logged r.logged ctx reduced fuel l).map Loop.bare = revisit cycle r ctx reduced fuel l.bare := by
  induction fuel with
  | zero => exact fun _ => rfl
  | succ fuel ih =>
    intro l
    rw [revisit, revisit, ← visit_logged hcycle]
    cases visit logged r.logged ctx reduced l with
    | none => rfl
    | some l' =>
      simp only [Option.bind_some, Option.map_some]
      show Option.map Loop.bare (if l'.continues ctx = true then _ else _) = if l'.continues ctx = true then _ else _
      split
      · exact ih l'
      · rfl

end

theorem foldlM_fst {τ α : Type} {f : σ → α → Option σ} {g : σ × τ → α → Option (σ × τ)} (xs : List α)
    (h : ∀ s, ∀ x ∈ xs, (g s x).map Prod.fst = f s.1 x) : ∀ s, (xs.foldlM g s).map Prod.fst = xs.foldlM f s.1 := by
  induction xs with
  | nil => exact fun _ => rfl
  | cons x xs ih =>
    intro s
    rw [List.foldlM_cons, List.foldlM_cons, ← h s x List.mem_cons_self]
    cases g s x with
    | none => rfl
    | some s' => exact ih (fun s y hy => h s y (List.mem_cons_of_mem x hy)) s'

/-- The log changes nothing. -/
theorem notifyAsImpl_logged (instances : List (Receiver σ ε ρ)) (reduce : σ → ε → ε → Option ε) (visits depth : Nat) :
    ∀ s ctx, (notifyAsImpl (instances.map Receiver.logged) (fun s => reduce s.1) visits depth s ctx).map Prod.fst =
      notifyAsImpl instances reduce visits depth s.1 ctx := by
  induction depth with
  | zero => exact fun _ _ => rfl
  | succ depth ih =>
    intro s ctx
    unfold notifyAsImpl
    rw [List.foldlM_map]
    refine foldlM_fst instances (fun s r _ => ?_) s
    dsimp only [Receiver.logged]
    cases reduce s.1 ctx.endpointVariant r.endpointVariant with
    | none => rfl
    | some reduced =>
      dsimp only [notifyReceiver]
      show _ = (revisit _ r ctx reduced visits (Loop.bare ⟨s, ctx.buffer, false, ctx.buffer, ctx.respondCb, []⟩)).map
        Loop.world
      rw [← revisit_logged ih, Option.map_map, Option.map_map]
      rfl

/-- The sender `x` is reached from `o` along rules. -/
def Path (Rule : ε → ε → ε → Prop) : ε → ε → Prop := Relation.ReflTransGen fun o x => ∃ i, Rule o i x

def AlongRules (Rule : ε → ε → ε → Prop) (o : ε) (log : List (Delivery ε)) : Prop :=
  ∀ d ∈ log, Path Rule o d.origin ∧ ∃ x, Rule d.origin d.receiver x

variable {instances : List (Receiver σ ε ρ)} {reduce : σ → ε → ε → Option ε} {Rule : ε → ε → ε → Prop}
variable {Inv : σ → Prop} {rank : ε → Nat}

theorem logged_layered (h : Layered instances reduce Rule (fun _ => True) Inv) (o : ε) :
    Layered (instances.map Receiver.logged) (fun s => reduce s.1) Rule (Path Rule o)
      (fun s => Inv s.1 ∧ AlongRules Rule o s.2) where
  buffer r hr := by
    obtain ⟨r, hmem, rfl⟩ := List.mem_map.mp hr
    rcases h.buffer r hmem with hslices | hleaves
    · exact Or.inl fun s ctx => hslices s.1 ctx
    · exact Or.inr fun s ctx => hleaves s.1 ctx
  rule s o i x hs := h.rule s.1 o i x hs.1
  next o i x ho hrule := ho.tail ⟨i, hrule⟩
  receive r hr s ctx x hs hfrom hrule := by
    obtain ⟨r, hmem, rfl⟩ := List.mem_map.mp hr
    refine ⟨h.receive r hmem s.1 ctx x hs.1 trivial hrule, fun d hd => ?_⟩
    rcases List.mem_append.mp hd with hd | hd
    · exact hs.2 d hd
    · rw [List.mem_singleton.mp hd]
      exact ⟨hfrom, x, hrule⟩

/-- The cycle of a sender ends, and every delivery in it is along the rules from there. -/
theorem logged_cycle_ends (h : Layered instances reduce Rule (fun _ => True) Inv)
    (hrank : ∀ o i x, Rule o i x → rank x < rank o) {depth : Nat} {world : σ} {ctx : NotifyCtx ε ρ} (hworld : Inv world)
    (hdepth : rank ctx.endpointVariant < depth) :
    ∃ world' log enough, Inv world' ∧ AlongRules Rule ctx.endpointVariant log ∧ ∀ visits ≥ enough,
      notifyAsImpl (instances.map Receiver.logged) (fun s => reduce s.1) visits depth (world, []) ctx =
        some (world', log) := by
  obtain ⟨⟨world', log⟩, ⟨hinv, hlog⟩, hends⟩ := cycle_ends (logged_layered h ctx.endpointVariant) hrank depth
    (world, []) ctx ⟨hworld, nofun⟩ .refl hdepth
  obtain ⟨enough, henough⟩ := eventually_atTop.mp hends
  exact ⟨world', log, enough, hinv, hlog, henough⟩

end

end Esp32Cam.Bdg
