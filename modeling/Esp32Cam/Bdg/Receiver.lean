/-
  Esp32Cam.Bdg.Receiver — the notification of receivers.

  A notification cycle visits every receiver its endpoint reduces for. A receiver may
  slice the buffer it is given, and is then visited again with what is left of it
  (`revisit`); a call of `forwardCb` starts a nested cycle under the reduced endpoint.
  The flag, the buffer and the callback that `forwardCb` sets live outside the loop over
  the visits, and nothing resets them.

  `cycles_exact_iff`: the nested cycles are one for each forwarded piece, with the
  buffer and the callback of that call, exactly when no piece is consumed behind a
  forwarded one. `a_consumed_piece_delivers_the_one_before_again` is a receiver that
  consumes the second of two pieces.
-/

import Mathlib.Data.List.Basic
import Mathlib.Tactic.ByContra
import Esp32Cam.Lib.Run

namespace Esp32Cam.Ut.Cont

structure ConstBuffer where
  data : Nat
  bytes : List UInt8
  deriving DecidableEq, Repr

namespace ConstBuffer

def size (b : ConstBuffer) : Nat := b.bytes.length

def asSlice (b : ConstBuffer) (offset offsetEnd : Nat) : ConstBuffer := ⟨b.data + offset, (b.bytes.take offsetEnd).drop offset⟩

def slice (b : ConstBuffer) (offset : Nat) : ConstBuffer := b.asSlice offset b.size

theorem slice_eq (b : ConstBuffer) (n : Nat) : b.slice n = ⟨b.data + n, b.bytes.drop n⟩ := by
  rw [slice, asSlice, size, List.take_length]

theorem size_slice (b : ConstBuffer) (n : Nat) : (b.slice n).size = b.size - n := by
  rw [slice_eq, size, List.length_drop, size]

end ConstBuffer

end Esp32Cam.Ut.Cont

namespace Esp32Cam.Bdg

open Esp32Cam.Ut.Cont

/-- What a receiver forwards; `ρ` are the response callbacks. -/
structure ForwardCtx (ρ : Type) where
  buffer : ConstBuffer
  respondCb : ρ
  deriving DecidableEq, Repr

/-- A notification; `ε` are the endpoints. -/
structure NotifyCtx (ε ρ : Type) where
  endpointVariant : ε
  buffer : ConstBuffer
  respondCb : ρ
  deriving DecidableEq, Repr

/-- A receiver: its endpoint, and what it makes of a notification. `onReceive` answers the
    calls of `forwardCb` it has made, in order, and the buffer it leaves. -/
structure Receiver (σ ε ρ : Type) where
  endpointVariant : ε
  onReceive : σ → NotifyCtx ε ρ → σ × List (ForwardCtx ρ) × ConstBuffer

/-- A visit to the receiver: the buffer before it and behind it, what was forwarded in it,
    and the nested cycle started for it. -/
structure Visit (ε ρ : Type) where
  buffer : ConstBuffer
  left : ConstBuffer
  forwards : List (ForwardCtx ρ)
  started : Option (NotifyCtx ε ρ)
  deriving DecidableEq, Repr

structure Loop (σ ε ρ : Type) where
  world : σ
  bufferSlice : ConstBuffer
  forwarded : Bool
  outBuffer : ConstBuffer
  outRespondCb : ρ
  visits : List (Visit ε ρ)

section
variable {σ ε ρ : Type}

def Loop.forwardCb (l : Loop σ ε ρ) (f : ForwardCtx ρ) : Loop σ ε ρ :=
  { l with forwarded := true, outBuffer := f.buffer, outRespondCb := f.respondCb }

/-- The receiver is visited, with what is left of the buffer, and a nested cycle is started
    where anything has been forwarded. -/
def visit (cycle : σ → NotifyCtx ε ρ → Option σ) (r : Receiver σ ε ρ) (ctx : NotifyCtx ε ρ) (reduced : ε)
    (l : Loop σ ε ρ) : Option (Loop σ ε ρ) :=
  let (world, forwards, left) := r.onReceive l.world { ctx with buffer := l.bufferSlice }
  let l' := forwards.foldl Loop.forwardCb { l with world := world, bufferSlice := left }
  if l'.forwarded then
    let next : NotifyCtx ε ρ := ⟨reduced, l'.outBuffer, l'.outRespondCb⟩
    (cycle l'.world next).map fun world =>
      { l' with world := world, visits := l.visits ++ [⟨l.bufferSlice, left, forwards, some next⟩] }
  else some { l' with visits := l.visits ++ [⟨l.bufferSlice, left, forwards, none⟩] }

/-- The receiver has sliced the buffer, and has not come to its end. -/
def Loop.continues (ctx : NotifyCtx ε ρ) (l : Loop σ ε ρ) : Bool :=
  0 < l.bufferSlice.size && l.bufferSlice.data != ctx.buffer.data

def revisit (cycle : σ → NotifyCtx ε ρ → Option σ) (r : Receiver σ ε ρ) (ctx : NotifyCtx ε ρ) (reduced : ε) :
    Nat → Loop σ ε ρ → Option (Loop σ ε ρ)
  | 0, _ => none
  | fuel + 1, l => (visit cycle r ctx reduced l).bind fun l =>
    if l.continues ctx then revisit cycle r ctx reduced fuel l else some l

def notifyReceiver (cycle : σ → NotifyCtx ε ρ → Option σ) (fuel : Nat) (r : Receiver σ ε ρ) (ctx : NotifyCtx ε ρ)
    (reduced : ε) (world : σ) : Option (Loop σ ε ρ) :=
  revisit cycle r ctx reduced fuel ⟨world, ctx.buffer, false, ctx.buffer, ctx.respondCb, []⟩

/-- The notification cycle over the registered receivers, nested `depth` deep at most, with
    `visits` visits to a receiver at most. The rules are read when a receiver's turn comes. -/
def notifyAsImpl (instances : List (Receiver σ ε ρ)) (reduce : σ → ε → ε → Option ε) (visits : Nat) :
    Nat → σ → NotifyCtx ε ρ → Option σ
  | 0, _, _ => none
  | depth + 1, world, ctx => instances.foldlM (fun world receiver =>
    match reduce world ctx.endpointVariant receiver.endpointVariant with
    | some reduced =>
      (notifyReceiver (notifyAsImpl instances reduce visits depth) visits receiver ctx reduced world).map Loop.world
    | none => some world) world

/-! ## What a visit starts -/

/-- The nested cycle the last call of `forwardCb` in the visit asks for. -/
def Visit.asked (reduced : ε) (v : Visit ε ρ) : Option (NotifyCtx ε ρ) :=
  v.forwards.getLast?.map fun f => ⟨reduced, f.buffer, f.respondCb⟩

/-- The piece the receiver has taken from the buffer. -/
def Visit.piece (v : Visit ε ρ) : List UInt8 := v.buffer.bytes.take (v.buffer.size - v.left.size)

/-- Nothing has been forwarded in the visit. -/
def Visit.consumes (v : Visit ε ρ) : Bool := v.forwards.isEmpty

/-- The cycles are the ones asked for, and a consumed piece starts none. -/
structure Exact (reduced : ε) (visits : List (Visit ε ρ)) : Prop where
  cycles : visits.filterMap Visit.started = visits.filterMap (Visit.asked reduced)
  consumed : ∀ v ∈ visits, v.consumes = true → v.started = none

/-- No piece is consumed behind a forwarded one. -/
def NoneConsumedBehind (visits : List (Visit ε ρ)) : Prop :=
  visits.Pairwise fun v v' => v.consumes = false → v'.consumes = false

structure Sound (reduced : ε) (l : Loop σ ε ρ) : Prop where
  forwarded : l.forwarded = true ↔ ∃ v ∈ l.visits, v.consumes = false
  asked : ∀ v ∈ l.visits, v.consumes = false → v.started = v.asked reduced
  consumed : (∀ v ∈ l.visits, v.consumes = true → v.started = none) ↔ NoneConsumedBehind l.visits

theorem foldl_forwardCb (fs : List (ForwardCtx ρ)) (l : Loop σ ε ρ) : fs.foldl Loop.forwardCb l =
    { l with
      forwarded := l.forwarded || !fs.isEmpty
      outBuffer := (fs.getLast?.map ForwardCtx.buffer).getD l.outBuffer
      outRespondCb := (fs.getLast?.map ForwardCtx.respondCb).getD l.outRespondCb } := by
  induction fs generalizing l with
  | nil => simp
  | cons f fs ih =>
    rw [List.foldl_cons, ih]
    cases fs with
    | nil => simp [Loop.forwardCb]
    | cons g gs => simp [Loop.forwardCb, List.getLast?_cons]

variable {cycle : σ → NotifyCtx ε ρ → Option σ} {r : Receiver σ ε ρ} {ctx : NotifyCtx ε ρ} {reduced : ε}
variable {l l' : Loop σ ε ρ} {fuel : Nat}

/-- One visit: it starts what it asks for or, where it asks for nothing, what has been asked for before. -/
structure Visited (cycle : σ → NotifyCtx ε ρ → Option σ) (r : Receiver σ ε ρ) (ctx : NotifyCtx ε ρ) (reduced : ε)
    (l : Loop σ ε ρ) (v : Visit ε ρ) (l' : Loop σ ε ρ) : Prop where
  visits : l'.visits = l.visits ++ [v]
  buffer : v.buffer = l.bufferSlice
  left : v.left = l'.bufferSlice
  sliced : v.left = (r.onReceive l.world { ctx with buffer := l.bufferSlice }).2.2
  forwards : v.forwards = (r.onReceive l.world { ctx with buffer := l.bufferSlice }).2.1
  forwarded : l'.forwarded = (l.forwarded || !v.consumes)
  asked : v.consumes = false → v.started = v.asked reduced
  behind : v.consumes = true → (v.started = none ↔ l.forwarded = false)
  quiet : v.started = none → l'.world = (r.onReceive l.world { ctx with buffer := l.bufferSlice }).1
  cycled : ∀ next, v.started = some next →
    cycle (r.onReceive l.world { ctx with buffer := l.bufferSlice }).1 next = some l'.world

theorem visit_visited (h : visit cycle r ctx reduced l = some l') : ∃ v, Visited cycle r ctx reduced l v l' := by
  unfold visit at h
  rcases hret : r.onReceive l.world { ctx with buffer := l.bufferSlice } with ⟨world, forwards, left⟩
  rw [hret] at h
  simp only [foldl_forwardCb] at h
  have hworld := congrArg Prod.fst hret
  have hleft := congrArg (fun ret => ret.2.2) hret
  have hforwards := congrArg (fun ret => ret.2.1) hret
  cases forwards with
  | nil =>
    cases hf : l.forwarded with
    | true =>
      simp only [hf, Bool.true_or, if_true, Option.map_eq_some_iff] at h
      obtain ⟨w, hw, rfl⟩ := h
      refine ⟨⟨l.bufferSlice, left, [], _⟩, rfl, rfl, rfl, hleft.symm, hforwards.symm, by simp [hf], nofun,
        fun _ => by simp [hf], nofun, fun next hnext => ?_⟩
      obtain rfl := Option.some_inj.mp hnext
      rw [hworld]
      exact hw
    | false =>
      simp only [hf, List.isEmpty_nil, Bool.not_true, Bool.or_false, Bool.false_eq_true, if_false, Option.some_inj] at h
      subst h
      exact ⟨⟨l.bufferSlice, left, [], none⟩, rfl, rfl, rfl, hleft.symm, hforwards.symm, by simp [hf, Visit.consumes], nofun,
        fun _ => by simp [hf], fun _ => hworld.symm, nofun⟩
  | cons f fs =>
    simp only [List.isEmpty_cons, Bool.not_false, Bool.or_true, if_true, Option.map_eq_some_iff] at h
    obtain ⟨w, hw, rfl⟩ := h
    refine ⟨⟨l.bufferSlice, left, f :: fs, _⟩, rfl, rfl, rfl, hleft.symm, hforwards.symm, by simp [Visit.consumes],
      fun _ => by simp [Visit.asked, List.getLast?_cons], nofun, nofun, fun next hnext => ?_⟩
    obtain rfl := Option.some_inj.mp hnext
    rw [hworld]
    exact hw

theorem visit_sound (h : Sound reduced l) (hv : visit cycle r ctx reduced l = some l') : Sound reduced l' := by
  obtain ⟨v, hv⟩ := visit_visited hv
  have hbehind : NoneConsumedBehind l'.visits ↔
      NoneConsumedBehind l.visits ∧ (v.consumes = true → l.forwarded = false) := by
    unfold NoneConsumedBehind
    rw [hv.visits, List.pairwise_append]
    refine and_congr_right fun _ => ?_
    constructor
    · intro hp hc
      rw [← Bool.not_eq_true, h.forwarded]
      intro h
      rcases h with ⟨u, hu, hfwd⟩
      rw [hp.2 u hu v (List.mem_singleton_self v) hfwd] at hc
      cases hc
    · intro hc
      refine ⟨List.pairwise_singleton _ _, fun u hu v' hv' hfwd => ?_⟩
      rw [List.mem_singleton.mp hv']
      by_contra hcons
      have hl := hc (by simpa using hcons)
      rw [h.forwarded.mpr ⟨u, hu, hfwd⟩] at hl
      cases hl
  refine ⟨?_, ?_, ?_⟩
  · rw [hv.forwarded, hv.visits, Bool.or_eq_true, h.forwarded]
    simp [or_and_right, exists_or]
  · rw [hv.visits]
    intro u hu
    rcases List.mem_append.mp hu with hu | hu
    · exact h.asked u hu
    · rw [List.mem_singleton.mp hu]; exact hv.asked
  · rw [hbehind, ← h.consumed, hv.visits]
    constructor
    · intro hall
      refine ⟨fun u hu => hall u (List.mem_append_left _ hu), fun hc => ?_⟩
      exact (hv.behind hc).mp (hall v (List.mem_append_right _ (List.mem_singleton_self v)) hc)
    · intro h u hu
      rcases h with ⟨hall, hc⟩
      rcases List.mem_append.mp hu with hu | hu
      · exact hall u hu
      · rw [List.mem_singleton.mp hu]
        exact fun hcons => (hv.behind hcons).mpr (hc hcons)

/-- What every visit keeps, the loop keeps. -/
theorem revisit_induct {P : Loop σ ε ρ → Prop} (hvisit : ∀ l l', P l → visit cycle r ctx reduced l = some l' → P l')
    (hl : P l) (h : revisit cycle r ctx reduced fuel l = some l') : P l' := by
  induction fuel generalizing l with
  | zero => cases h
  | succ fuel ih =>
    rw [revisit, Option.bind_eq_some_iff] at h
    obtain ⟨l₁, hv, h⟩ := h
    have h₁ := hvisit l l₁ hl hv
    split at h
    · exact ih h₁ h
    · obtain rfl := Option.some_inj.mp h
      exact h₁

theorem exact_iff (h : Sound reduced l) : Exact reduced l.visits ↔ NoneConsumedBehind l.visits := by
  rw [← h.consumed]
  refine ⟨Exact.consumed, fun hc => ⟨?_, hc⟩⟩
  refine List.filterMap_congr fun v hv => ?_
  cases hcons : v.consumes with
  | false => exact h.asked v hv hcons
  | true =>
    rw [hc v hv hcons, Visit.asked, List.isEmpty_iff.mp hcons]
    rfl

/-! ## Receivers that slice -/

/-- The receiver takes a piece from the front of every buffer, and none from an empty one. -/
def Slices (r : Receiver σ ε ρ) : Prop := ∀ world ctx, ∃ n ≤ ctx.buffer.size, (0 < ctx.buffer.size → 0 < n) ∧
  (r.onReceive world ctx).2.2 = ctx.buffer.slice n

structure Sliced (ctx : NotifyCtx ε ρ) (l : Loop σ ε ρ) : Prop where
  data : l.bufferSlice.data = ctx.buffer.data + (l.visits.map Visit.piece).flatten.length
  bytes : (l.visits.map Visit.piece).flatten ++ l.bufferSlice.bytes = ctx.buffer.bytes

/-- A visit that leaves all but `n` bytes takes a piece of `n` bytes. -/
theorem Visited.pieces {v : Visit ε ρ} {n : Nat} (hv : Visited cycle r ctx reduced l v l') (hn : n ≤ l.bufferSlice.size)
    (hslice : (r.onReceive l.world { ctx with buffer := l.bufferSlice }).2.2 = l.bufferSlice.slice n) :
    l'.bufferSlice = l.bufferSlice.slice n ∧
      (l'.visits.map Visit.piece).flatten = (l.visits.map Visit.piece).flatten ++ l.bufferSlice.bytes.take n := by
  have hleft : v.left = l.bufferSlice.slice n := hv.sliced.trans hslice
  refine ⟨hv.left.symm.trans hleft, ?_⟩
  have hpiece : v.piece = l.bufferSlice.bytes.take n := by
    rw [Visit.piece, hv.buffer, hleft, ConstBuffer.size_slice]
    congr 1
    omega
  rw [hv.visits, List.map_append, List.flatten_append, List.map_singleton, List.flatten_singleton, hpiece]

theorem visit_sliced (hr : Slices r) (h : Sliced ctx l) (hv : visit cycle r ctx reduced l = some l') :
    Sliced ctx l' ∧ l'.bufferSlice.size ≤ l.bufferSlice.size ∧
      (0 < l.bufferSlice.size → l'.bufferSlice.size < l.bufferSlice.size) := by
  obtain ⟨v, hv⟩ := visit_visited hv
  obtain ⟨n, hn, hpos, hslice⟩ := hr l.world { ctx with buffer := l.bufferSlice }
  obtain ⟨hleft, hflat⟩ := hv.pieces hn hslice
  dsimp only at hn hpos
  refine ⟨⟨?_, ?_⟩, ?_, fun h0 => ?_⟩
  · rw [hleft, hflat, List.length_append, List.length_take, ConstBuffer.slice_eq, h.data]
    unfold ConstBuffer.size at hn
    dsimp only
    omega
  · rw [hleft, hflat, ConstBuffer.slice_eq, List.append_assoc, List.take_append_drop, h.bytes]
  · rw [hleft, ConstBuffer.size_slice]
    omega
  · have := hpos h0
    rw [hleft, ConstBuffer.size_slice]
    omega

/-- A slicing receiver is visited until the buffer is empty. -/
theorem revisit_sliced (hr : Slices r) (h : Sliced ctx l) (hrun : revisit cycle r ctx reduced fuel l = some l') :
    (l'.visits.map Visit.piece).flatten = ctx.buffer.bytes := by
  induction fuel generalizing l with
  | zero => cases hrun
  | succ fuel ih =>
    rw [revisit, Option.bind_eq_some_iff] at hrun
    obtain ⟨l₁, hv, hrun⟩ := hrun
    obtain ⟨h₁, hle, hlt⟩ := visit_sliced hr h hv
    split at hrun
    · exact ih h₁ hrun
    · rename_i hstop
      obtain rfl := Option.some_inj.mp hrun
      have hbytes := h₁.bytes
      have hdata := h₁.data
      have hempty : l₁.bufferSlice.bytes = [] := by
        by_contra hne
        have hsize : 0 < l₁.bufferSlice.size := List.length_pos_iff.mpr hne
        -- something is left, so the visit has taken a piece, and the address has moved
        simp only [Loop.continues, hsize, decide_true, Bool.true_and, bne_iff_ne, ne_eq, Decidable.not_not] at hstop
        have hnone : (l₁.visits.map Visit.piece).flatten.length = 0 := by omega
        have hlen := congrArg List.length hbytes
        have hlen₀ := congrArg List.length h.bytes
        rw [List.length_append] at hlen hlen₀
        unfold ConstBuffer.size at hsize hlt hle
        omega
      rw [hempty, List.append_nil] at hbytes
      exact hbytes

theorem revisit_returns (hr : Slices r) (hcycle : ∀ world ctx, (cycle world ctx).isSome = true) (h : Sliced ctx l)
    (hfuel : l.bufferSlice.size < fuel) : ∃ l', revisit cycle r ctx reduced fuel l = some l' := by
  induction fuel generalizing l with
  | zero => omega
  | succ fuel ih =>
    obtain ⟨l₁, hv⟩ : ∃ l₁, visit cycle r ctx reduced l = some l₁ := by
      unfold visit
      split
      dsimp only
      split
      · exact ⟨_, congrArg _ (Option.some_get (hcycle _ _)).symm⟩
      · exact ⟨_, rfl⟩
    obtain ⟨h₁, hle, hlt⟩ := visit_sliced hr h hv
    rw [revisit, hv, Option.bind_some]
    split
    · rename_i hmore
      simp only [Loop.continues, Bool.and_eq_true, decide_eq_true_eq] at hmore
      exact ih h₁ (by omega)
    · exact ⟨_, rfl⟩

/-- The notification of a slicing receiver ends where the nested cycles do. -/
theorem notifyReceiver_returns (hr : Slices r) (hcycle : ∀ world ctx, (cycle world ctx).isSome = true)
    (ctx : NotifyCtx ε ρ) (reduced : ε) (world : σ) :
    ∃ l, notifyReceiver cycle (ctx.buffer.size + 1) r ctx reduced world = some l :=
  revisit_returns hr hcycle ⟨rfl, rfl⟩ (Nat.lt_succ_self _)

end

/-! ## The notification of one receiver -/

/-- **Notification cycle.** Of a receiver that slices its buffer: the pieces are the
    buffer, and the nested cycles are the forwarded pieces exactly when no piece is
    consumed behind a forwarded one; the loop ends where the nested cycles do. -/
theorem cycles_exact_iff {σ ε ρ : Type} (cycle : σ → NotifyCtx ε ρ → Option σ) {r : Receiver σ ε ρ} (hr : Slices r)
    (ctx : NotifyCtx ε ρ) (reduced : ε) (world : σ) :
    (∀ fuel l, notifyReceiver cycle fuel r ctx reduced world = some l →
      (l.visits.map Visit.piece).flatten = ctx.buffer.bytes ∧ (Exact reduced l.visits ↔ NoneConsumedBehind l.visits)) ∧
    ((∀ world ctx, (cycle world ctx).isSome = true) →
      ∃ l, notifyReceiver cycle (ctx.buffer.size + 1) r ctx reduced world = some l) := by
  have hsliced : Sliced ctx (⟨world, ctx.buffer, false, ctx.buffer, ctx.respondCb, []⟩ : Loop σ ε ρ) := ⟨rfl, rfl⟩
  have hsound : Sound reduced (⟨world, ctx.buffer, false, ctx.buffer, ctx.respondCb, []⟩ : Loop σ ε ρ) :=
    ⟨⟨nofun, nofun⟩, nofun, iff_of_true nofun List.Pairwise.nil⟩
  refine ⟨fun fuel l hrun => ⟨revisit_sliced hr hsliced hrun, ?_⟩, fun hcycle => ?_⟩
  · exact exact_iff (revisit_induct (P := Sound reduced) (fun _ _ h hv => visit_sound h hv) hsound hrun)
  · exact notifyReceiver_returns hr hcycle ctx reduced world

/-- A receiver that takes one byte at a time, forwards the ones and consumes the others. -/
def forwardsOnes : Receiver (List (NotifyCtx Unit Nat)) Unit Nat where
  endpointVariant := ()
  onReceive world ctx := (world,
    if ctx.buffer.bytes.head? = some 1 then [⟨ctx.buffer.asSlice 0 1, ctx.respondCb⟩] else [],
    ctx.buffer.slice (min 1 ctx.buffer.size))

theorem forwardsOnes_slices : Slices forwardsOnes :=
  fun _ ctx => ⟨min 1 ctx.buffer.size, by omega, by omega, rfl⟩

def kept (world : List (NotifyCtx Unit Nat)) (ctx : NotifyCtx Unit Nat) : Option (List (NotifyCtx Unit Nat)) :=
  some (world ++ [ctx])

def twoAndOne : NotifyCtx Unit Nat := ⟨(), ⟨16, [2, 1]⟩, 7⟩
def oneAndTwo : NotifyCtx Unit Nat := ⟨(), ⟨16, [1, 2]⟩, 7⟩

theorem a_piece_forwarded_last_is_delivered_once :
    (∀ fuel l, notifyReceiver kept fuel forwardsOnes twoAndOne () [] = some l →
      (l.visits.map Visit.piece).flatten = [2, 1] ∧ (Exact () l.visits ↔ NoneConsumedBehind l.visits)) ∧
    ((∀ world ctx, (kept world ctx).isSome = true) → ∃ l, notifyReceiver kept 3 forwardsOnes twoAndOne () [] = some l) :=
  cycles_exact_iff kept forwardsOnes_slices twoAndOne () []

/-- The first byte is forwarded, the second consumed, and the first delivered again. -/
theorem a_consumed_piece_delivers_the_one_before_again :
    ∃ l, notifyReceiver kept 3 forwardsOnes oneAndTwo () [] = some l ∧ ¬ Exact () l.visits ∧
      l.world = [⟨(), ⟨16, [1]⟩, 7⟩, ⟨(), ⟨16, [1]⟩, 7⟩] := by
  refine ⟨_, rfl, fun h => ?_, rfl⟩
  have hcycles := h.cycles
  revert hcycles
  decide

end Esp32Cam.Bdg
