/-
  Esp32Cam.Bft.FlashRecovery — what a page that fails leaves for the calls after it.

  A call that cannot read or write a page returns from inside the loop, before the reset
  at its end. `Progress` is a flusher with what its caller has lost: whether a page of the
  file under way has failed. A run recovers (`Recovers`) when every last chunk leaves the
  state it found at first, and nothing of a file is written behind a page that failed.

  It does exactly as long as no page of a last chunk fails, and a chunk handed over behind
  a failed page is empty or fails at its first page again (`recovers_iff`).
  `a_failed_page_leaves_the_transfer_open` are two runs that do not recover.
-/

import Esp32Cam.Lib.PartialRun
import Esp32Cam.Bft.FlashPlan

namespace Esp32Cam.Bft.Flusher

open Esp32Cam.Lib Esp32Cam.Lib.PartialRun Esp32Cam.Ut Esp32Cam.Sys

structure Progress where
  flusher : Flusher
  /-- A page of the file under way could not be read or written. -/
  lost : Bool

namespace Progress

def pageFailed (d : FlashMemory) (n : Nat) : Bool := (d.trace.reverse.zipIdx.drop n).any fun (op, i) => Stops d i op

def step (k : Kind) (memoryPartitionTable : File → Option Nat) (p : Progress) (c : Call) : Option Progress :=
  (call k memoryPartitionTable p.flusher c).map fun s =>
    ⟨s, !c.isLastChunk && (p.lost || pageFailed s.flashMemory p.flusher.flashMemory.trace.length)⟩

structure Recovers (p : Progress) (c : Call) (p' : Progress) : Prop where
  reset : c.isLastChunk = true → p'.flusher.flushingState = {}
  silent : p.lost = true → c.chunk ≠ [] → ∀ id offset length,
    .write id offset length ∉ p'.flusher.flashMemory.since p.flusher.flashMemory.trace.length

/-- The first page of the plan cannot be read, or there is none. -/
def StartFails (d : FlashMemory) : Nat → List FlashOp → Prop
  | _, [] => True
  | n, .erase _ :: ops => StartFails d (n + 1) ops
  | n, op :: _ => ¬ d.Succeeds n op

/-- No page of a last chunk fails, and behind a failed page the next one fails as well. -/
structure Unhindered (k : Kind) (memoryPartitionTable : File → Option Nat) (p : Progress) (c : Call) : Prop where
  last : c.isLastChunk = true → Plan.Clear (Stops p.flusher.flashMemory) p.flusher.flashMemory.trace.length
    (callOps k memoryPartitionTable p.flusher c)
  lost : p.lost = true → StartFails p.flusher.flashMemory p.flusher.flashMemory.trace.length
    (callOps k memoryPartitionTable p.flusher c)

/-- A transfer that is not under way has left no trace, and nothing is lost of it. -/
structure Inv (p : Progress) : Prop where
  fresh : p.flusher.flushingState.ongoing = false → p.flusher.flushingState = {}
  lost : p.lost = true → p.flusher.flushingState.ongoing = true

/-! ## The first page of a plan -/

section
variable {d : FlashMemory} {n : Nat} {g : FlashMemoryGeometry} {last : Option Nat} {address : Nat} {ops : List FlashOp}

theorem startFails_eraseOps : StartFails d n (eraseOps g last address ++ ops) ↔
    StartFails d (n + (eraseOps g last address).length) ops := by
  unfold eraseOps
  split
  · exact Iff.rfl
  · exact Iff.rfl

theorem write_not_mem_eraseOps (id offset length : Nat) : .write id offset length ∉ eraseOps g last address := by
  unfold eraseOps
  split
  · exact fun h => by cases h
  · exact fun h => by cases List.mem_singleton.mp h

/-- A plan that is stopped at its first page comes to no write, and another one does. -/
theorem startFails_iff {k : Kind} {f : FlushingState} {m : Nat} (hm : 0 < m)
    (hroom : (k.piece g f.baseFlashMemoryAddress f.flashMemoryAddress m).length = 0 →
      ¬ Plan.Clear (Stops d) n (planOf k g f m)) :
    StartFails d n (planOf k g f m) ↔
      ∀ id offset length, .write id offset length ∉ Plan.issued (Stops d) n (planOf k g f m) := by
  obtain ⟨rest, hplan, hrest⟩ := planOf_pos k g f hm
  have herase := Plan.clear_of_forall (not_stops_eraseOps d g (lastErased f) f.flashMemoryAddress) n
  generalize k.piece g f.baseFlashMemoryAddress f.flashMemoryAddress m = p at *
  rw [hplan, Plan.clear_append, and_iff_right herase] at hroom
  rw [hplan, startFails_eraseOps, Plan.issued_append herase]
  generalize n + (eraseOps g (lastErased f) f.flashMemoryAddress).length = i at *
  by_cases hread : d.Succeeds i (p.readOp g)
  · have hstart : ¬ StartFails d i (p.ops g ++ rest) := fun h => h hread
    have hcontinue : ¬ Stops d i (p.readOp g) := fun h => h hread
    refine iff_of_false hstart fun hnone => ?_
    by_cases hzero : p.length = 0
    · apply hroom hzero
      rw [hrest hzero, Piece.ops, if_pos hzero]
      exact ⟨hcontinue, trivial⟩
    · have hwrite : p.writeOp g ∈ Plan.issued (Stops d) i (p.ops g ++ rest) := by
        rw [Piece.ops, if_neg hzero, List.cons_append, Plan.issued, if_neg hcontinue]
        exact List.mem_cons_of_mem _ List.mem_cons_self
      exact hnone _ _ _ (List.mem_append_right _ hwrite)
  · have hstops : Stops d i (p.readOp g) := hread
    refine iff_of_true hread fun id offset length hmem => ?_
    rw [Piece.ops, List.cons_append, Plan.issued, if_pos hstops] at hmem
    rcases List.mem_append.mp hmem with hmem | hmem
    · exact write_not_mem_eraseOps id offset length hmem
    · cases List.mem_singleton.mp hmem

/-- The first page of a chunk can be read where none fails. -/
theorem not_startFails_of_clear {k : Kind} {f : FlushingState} {m : Nat} (hm : 0 < m)
    (hclear : Plan.Clear (Stops d) n (planOf k g f m)) : ¬ StartFails d n (planOf k g f m) := by
  obtain ⟨rest, hplan, -⟩ := planOf_pos k g f hm
  rw [hplan, Plan.clear_append] at hclear
  rw [hplan, startFails_eraseOps]
  exact fun h => hclear.2.1 h

theorem startFails_zero {k : Kind} {f : FlushingState} : StartFails d n (planOf k g f 0) := by
  rw [planOf_zero, ← List.append_nil (eraseOps g (lastErased f) f.flashMemoryAddress), startFails_eraseOps]
  trivial

end

/-! ## One call -/

section
variable {k : Kind} {memoryPartitionTable : File → Option Nat} {p p' : Progress} {c : Call}

theorem start_eq_none {s : Flusher} (h : start memoryPartitionTable s c.file = none) : s.flushingState.ongoing = false := by
  unfold start at h
  by_cases hongoing : s.flushingState.ongoing = true
  · rw [if_pos hongoing] at h
    cases h
  · exact Bool.eq_false_iff.mpr hongoing

theorem Inv.step (hstep : step k memoryPartitionTable p c = some p') (h : Inv p) : Inv p' := by
  obtain ⟨s', hcall, rfl⟩ := Option.map_eq_some_iff.mp hstep
  rcases call_some hcall with ⟨hstart, -, rfl⟩ | ⟨f, -, ⟨-, -, -, hstate⟩ | ⟨-, -, hongoing⟩⟩
  · have hidle := start_eq_none hstart
    refine ⟨fun _ => h.fresh hidle, fun hlost => ?_⟩
    have hnone : pageFailed p.flusher.flashMemory p.flusher.flashMemory.trace.length = false := by
      unfold pageFailed
      rw [List.drop_eq_nil_of_le (by simp)]
      rfl
    have hlost' : (!c.isLastChunk && (p.lost || pageFailed p.flusher.flashMemory p.flusher.flashMemory.trace.length)) =
        true := hlost
    rw [hnone, Bool.or_false, Bool.and_eq_true] at hlost'
    exact h.lost hlost'.2
  · by_cases hlast : c.isLastChunk = true
    · rw [if_pos hlast] at hstate
      refine ⟨fun _ => hstate, fun hlost => ?_⟩
      simp [hlast] at hlost
    · rw [if_neg hlast] at hstate
      refine ⟨fun hidle => ?_, fun _ => hstate⟩
      have hidle' : s'.flushingState.ongoing = false := hidle
      rw [hstate] at hidle'
      cases hidle'
  · refine ⟨fun hidle => ?_, fun _ => hongoing⟩
    have hidle' : s'.flushingState.ongoing = false := hidle
    rw [hongoing] at hidle'
    cases hidle'

theorem recovers_iff_unhindered (hstep : step k memoryPartitionTable p c = some p') (h : Inv p) :
    Recovers p c p' ↔ Unhindered k memoryPartitionTable p c := by
  obtain ⟨s', hcall, rfl⟩ := Option.map_eq_some_iff.mp hstep
  rcases call_some hcall with ⟨hstart, hops, rfl⟩ | ⟨f, hops, ⟨hclear, hpos, ⟨closing, hissued⟩, hstate⟩ |
      ⟨hstopped, hissued, hongoing⟩⟩
  · -- the file is in no partition
    have hidle := start_eq_none hstart
    refine iff_of_true ⟨fun _ => h.fresh hidle, fun hlost => ?_⟩ ⟨fun _ => ?_, fun _ => ?_⟩
    · rw [h.lost hlost] at hidle
      cases hidle
    · rw [hops]
      trivial
    · rw [hops]
      trivial
  · -- no page fails
    have hsince := hissued.since
    constructor
    · intro hrecovers
      refine ⟨fun _ => hclear, fun hlost => ?_⟩
      by_cases hchunk : c.chunk = []
      · rw [hops, hchunk]
        exact startFails_zero
      · have hlength := List.length_pos_iff.mpr hchunk
        rw [hops, startFails_iff hlength fun hzero => absurd hzero (hpos hlength).ne', ← hops, Plan.issued_of_clear hclear]
        intro id offset length hmem
        refine hrecovers.silent hlost hchunk id offset length ?_
        rw [hsince, List.mem_reverse]
        exact List.mem_append_left _ hmem
    · intro hunhindered
      refine ⟨fun hlast => ?_, fun hlost hchunk => ?_⟩
      · rwa [if_pos hlast] at hstate
      · have hfails := hunhindered.lost hlost
        rw [hops] at hclear hfails
        exact absurd hfails (not_startFails_of_clear (List.length_pos_iff.mpr hchunk) hclear)
  · -- a page fails, and the function returns from inside the loop
    have hsince := hissued.since
    have hopen : s'.flushingState ≠ {} := by
      intro hreset
      rw [hreset] at hongoing
      cases hongoing
    have hlength : 0 < c.chunk.length := by
      refine Nat.pos_of_ne_zero fun hzero => hstopped ?_
      rw [hops, hzero, planOf_zero]
      exact Plan.clear_of_forall (not_stops_eraseOps _ _ _ _) _
    have hlost : StartFails p.flusher.flashMemory p.flusher.flashMemory.trace.length
        (callOps k memoryPartitionTable p.flusher c) ↔
        ∀ id offset length, .write id offset length ∉ s'.flashMemory.since p.flusher.flashMemory.trace.length := by
      rw [hsince]
      simp only [List.mem_reverse]
      rw [hops] at hstopped ⊢
      exact startFails_iff hlength fun _ => hstopped
    constructor
    · intro hrecovers
      refine ⟨fun hlast => absurd (hrecovers.reset hlast) hopen, fun h => hlost.mpr ?_⟩
      exact hrecovers.silent h (List.length_pos_iff.mp hlength)
    · intro hunhindered
      exact ⟨fun hlast => absurd (hunhindered.last hlast) hstopped, fun h _ => hlost.mp (hunhindered.lost h)⟩

end

/-! ## Runs -/

/-- **Recovery from errors.** Whatever operations of the device fail, every last chunk leaves
    the state reset and nothing is written behind a page that failed, exactly as long as no
    page of a last chunk fails and every chunk behind a failed page fails at its first. -/
theorem recovers_iff (k : Kind) (memoryPartitionTable : File → Option Nat) (d : FlashMemory)
    (fs : SingleBufferRamFileSystem) (calls : List Call) :
    Along (step k memoryPartitionTable) Recovers ⟨⟨d, {}, fs⟩, false⟩ calls ↔
      Along (step k memoryPartitionTable) (fun p c _ => Unhindered k memoryPartitionTable p c) ⟨⟨d, {}, fs⟩, false⟩ calls := by
  have hinit : Inv ⟨⟨d, {}, fs⟩, false⟩ := ⟨fun _ => rfl, fun h => by cases h⟩
  refine along_iff_along (I := Inv) ?_ ?_ hinit
  · intro p c p' hstep h _
    exact h.step hstep
  · intro p c p' hstep h
    exact recovers_iff_unhindered hstep h

/-- The small flusher, on a device whose `n`-th operation fails. -/
def failingFlusher (n : Nat) : Flusher :=
  { smallFlusher with flashMemory := { smallFlusher.flashMemory with faults := (· == n) } }

/-- The page of a last chunk cannot be written: the transfer stays open. The page of a chunk
    cannot be written: the next chunk is stored in its place. -/
theorem a_failed_page_leaves_the_transfer_open :
    ¬ Along (step .salute saluteFlashMemoryPartitionTable) Recovers ⟨failingFlusher 2, false⟩
      [showCall [1, 2, 3] true (by decide)] ∧
    ¬ Along (step .salute saluteFlashMemoryPartitionTable) Recovers ⟨failingFlusher 2, false⟩
      [showCall [1, 2, 3, 4] false (by decide), showCall [5, 6] false (by decide)] := by
  constructor
  · intro h
    have hopen : (step .salute saluteFlashMemoryPartitionTable ⟨failingFlusher 2, false⟩
        (showCall [1, 2, 3] true (by decide))).map (·.flusher.flushingState.ongoing) = some true := by decide +kernel
    obtain ⟨p', hstep, hongoing⟩ := Option.map_eq_some_iff.mp hopen
    rw [(h p' hstep).1.reset rfl] at hongoing
    cases hongoing
  · intro h
    have hlost : (step .salute saluteFlashMemoryPartitionTable ⟨failingFlusher 2, false⟩
        (showCall [1, 2, 3, 4] false (by decide))).map (·.lost) = some true := by decide +kernel
    obtain ⟨p', hstep, hlost⟩ := Option.map_eq_some_iff.mp hlost
    have hwritten : ((step .salute saluteFlashMemoryPartitionTable ⟨failingFlusher 2, false⟩
        (showCall [1, 2, 3, 4] false (by decide))).bind fun p =>
          (step .salute saluteFlashMemoryPartitionTable p (showCall [5, 6] false (by decide))).map fun p' =>
            p'.flusher.flashMemory.since p.flusher.flashMemory.trace.length) =
        some [.write 0 0 8, .read 0 0 8] := by decide +kernel
    rw [hstep, Option.bind_some] at hwritten
    obtain ⟨p'', hstep', hops⟩ := Option.map_eq_some_iff.mp hwritten
    have hsilent := ((h p' hstep).2 p'' hstep').1.silent hlost (List.cons_ne_nil 5 [6]) 0 0 8
    rw [hops] at hsilent
    exact hsilent List.mem_cons_self

end Progress

end Esp32Cam.Bft.Flusher
