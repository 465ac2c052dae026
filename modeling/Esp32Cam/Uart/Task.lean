/-
  Esp32Cam.Uart.Task — the task that reads the UARTs, and the one that processes what is read.

  They exchange the buffers of one pool. The reader borrows a buffer, reads into it, and
  gives it back as full, or as free if nothing has come; the processor takes a full one,
  hands it to the receivers, and gives it back as free. Each of the four exchanges is
  made under a mutex, and the two tasks take turns at any point between them. Where no
  buffer is free the reader takes the oldest full one away from the processor.

  Beside the code's state the model keeps what has been given back as full (`filled`), and
  what has become of it once it is out of the ring (`left`).

  - `pool_conserved`: whatever turns the tasks take, every exchange succeeds, every buffer
    is in exactly one place, and the full ones leave the ring in the order they came: to
    be processed, as they were filled, or discarded where no buffer is free.
-/

import Esp32Cam.Lib.PartialRun
import Esp32Cam.Ut.CircularSwap

namespace Esp32Cam.Uart

open Esp32Cam.Lib
open Esp32Cam.Ut (CircularSwap)

variable {n : Nat}

structure Buf where
  bytes : List UInt8 := []
  device : Option Nat := none
  deriving DecidableEq, Repr

namespace SyncedSwap

/-- It is better to trash a stalled buffer than to miss a new message. -/
def getFree (swap : CircularSwap Buf n) : Option (Option (Fin n) × CircularSwap Buf n) :=
  if swap.countFree ≠ 0 then swap.popFree.map fun (i, swap) => (some i, swap)
  else if swap.countFull ≠ 0 then swap.popFull.map fun (i, swap) => (some i, swap)
  else some (none, swap)

def getFull (swap : CircularSwap Buf n) : Option (Option (Fin n) × CircularSwap Buf n) :=
  if swap.countFull ≠ 0 then swap.popFull.map fun (i, swap) => (some i, swap) else some (none, swap)

end SyncedSwap

/-- The buffer the reader holds, before and after it has read into it. -/
inductive Reader (n : Nat) where
  | idle
  | borrowed (i : Fin n)
  | read (i : Fin n)
  deriving DecidableEq, Repr

def Reader.held : Reader n → List (Fin n)
  | .idle => []
  | .borrowed i => [i]
  | .read i => [i]

inductive Fate where
  | processed
  | discarded
  deriving DecidableEq, Repr

structure Task (n : Nat) where
  swap : CircularSwap Buf n
  reader : Reader n := .idle
  /-- The buffer the processor holds. -/
  processor : Option (Fin n) := none
  filled : List Buf := []
  left : List (Fate × Buf) := []

namespace Task

def start : Task n := { swap := CircularSwap.start fun _ => {} }

/-- The full buffers in the ring, the oldest one first. -/
def unprocessed (t : Task n) : List Buf := t.swap.ring.toList.map t.swap.buffers

def processed (t : Task n) : List Buf := (t.left.filter (·.1 = .processed)).map Prod.snd

/-! ## The steps of the two tasks; a task that is not at the step does nothing -/

def getFree (t : Task n) : Option (Task n) :=
  match t.reader with
  | .idle =>
    (SyncedSwap.getFree t.swap).map fun (buffer, swap) =>
      match buffer with
      | some i =>
        { t with swap, reader := .borrowed i,
                 left := if t.swap.countFree ≠ 0 then t.left else t.left ++ [(.discarded, t.swap.buffers i)] }
      | none => { t with swap }
  | _ => some t

def read (t : Task n) (device : Nat) (bytes : List UInt8) : Task n :=
  match t.reader with
  | .borrowed i =>
    let buffers := Function.update t.swap.buffers i { bytes, device := some device }
    { t with swap := { t.swap with buffers }, reader := .read i }
  | _ => t

/-- `pushFull`, or `pushFree` if nothing has been read. -/
def push (t : Task n) : Option (Task n) :=
  match t.reader with
  | .read i =>
    if (t.swap.buffers i).bytes ≠ [] then
      (t.swap.pushFull i).map fun swap => { t with swap, reader := .idle, filled := t.filled ++ [t.swap.buffers i] }
    else (t.swap.pushFree i).map fun swap => { t with swap, reader := .idle }
  | _ => some t

def getFull (t : Task n) : Option (Task n) :=
  match t.processor with
  | none =>
    (SyncedSwap.getFull t.swap).map fun (buffer, swap) =>
      match buffer with
      | some i => { t with swap, processor := some i, left := t.left ++ [(.processed, t.swap.buffers i)] }
      | none => { t with swap }
  | some _ => some t

def pushFree (t : Task n) : Option (Task n) :=
  match t.processor with
  | some i => (t.swap.pushFree i).map fun swap => { t with swap, processor := none }
  | none => some t

inductive Event where
  | getFree
  | read (device : Nat) (bytes : List UInt8)
  | push
  | getFull
  | pushFree
  deriving DecidableEq, Repr

def step (t : Task n) : Event → Option (Task n)
  | .getFree => t.getFree
  | .read device bytes => some (t.read device bytes)
  | .push => t.push
  | .getFull => t.getFull
  | .pushFree => t.pushFree

/-! ## What is asked of a state, and of a step -/

structure Conserves (t : Task n) : Prop where
  /-- Every buffer is in exactly one of the four places. -/
  once : (t.swap.stack ++ t.swap.ring.toList ++ t.reader.held ++ t.processor.toList).Perm (List.finRange n)
  /-- What has been filled has left the ring in that order, or is still in it. -/
  order : t.filled = t.left.map Prod.snd ++ t.unprocessed
  inOrder : t.processed.Sublist t.filled
  /-- What is being processed is what was filled. -/
  processing : ∀ i, t.processor = some i → t.processed.getLast? = some (t.swap.buffers i)

/-- The buffer a step takes out of the ring: the oldest one, to be processed, or discarded
    where no buffer is free. -/
def leaving (t : Task n) : Event → List (Fate × Buf)
  | .getFull => if t.processor = none then (t.unprocessed.take 1).map (Fate.processed, ·) else []
  | .getFree =>
    if t.reader = .idle ∧ t.swap.stack = [] then (t.unprocessed.take 1).map (Fate.discarded, ·) else []
  | _ => []

def Leaves (t : Task n) (e : Event) (t' : Task n) : Prop := t'.left = t.left ++ leaving t e

/-! ## The invariant -/

structure Inv (t : Task n) (full : List (Fin n)) : Prop where
  partition : t.swap.Partition full (t.reader.held ++ t.processor.toList)
  order : t.filled = t.left.map Prod.snd ++ full.map t.swap.buffers
  processing : ∀ i, t.processor = some i → t.processed.getLast? = some (t.swap.buffers i)

variable {t : Task n} {full : List (Fin n)}

theorem Inv.unprocessed (h : Inv t full) : t.unprocessed = full.map t.swap.buffers := by
  rw [Task.unprocessed, h.partition.ring.toList_eq]

theorem Inv.conserves (h : Inv t full) : Conserves t where
  once := by
    have honce := h.partition.once
    rw [h.partition.ring.toList_eq, List.append_assoc]
    exact honce
  order := by rw [h.unprocessed, h.order]
  inOrder := by
    rw [h.order]
    exact ((List.filter_sublist).map _).trans (List.sublist_append_left _ _)
  processing := h.processing

theorem inv_start : Inv (start : Task n) [] where
  partition := CircularSwap.partition_start _
  order := rfl
  processing i hi := by cases hi

def Preserves (t : Task n) (e : Event) : Prop := ∃ t' full', t.step e = some t' ∧ Inv t' full' ∧ Leaves t e t'

theorem leaves_same {e : Event} {t' : Task n} (hleft : t'.left = t.left) (hnone : leaving t e = []) : Leaves t e t' := by
  unfold Leaves
  rw [hleft, hnone, List.append_nil]

theorem preserves_same {e : Event} (h : Inv t full) (hsame : t.step e = some t) (hnone : leaving t e = []) :
    Preserves t e :=
  ⟨t, full, hsame, h, leaves_same rfl hnone⟩

/-! ## The steps keep it -/

section
variable {swap : CircularSwap Buf n} {x : Buf}

theorem filter_processed (left : List (Fate × Buf)) : ((left ++ [(Fate.processed, x)]).filter (·.1 = .processed)).map Prod.snd =
    (left.filter (·.1 = .processed)).map Prod.snd ++ [x] := by
  rw [List.filter_append, List.map_append]
  rfl

theorem filter_discarded (left : List (Fate × Buf)) :
    (left ++ [(Fate.discarded, x)]).filter (·.1 = .processed) = left.filter (·.1 = .processed) := by
  rw [List.filter_append]
  exact List.append_nil _

end

theorem getFree_preserves (h : Inv t full) : Preserves t .getFree := by
  cases hreader : t.reader with
  | idle =>
    have hpartition : t.swap.Partition full t.processor.toList := by
      have hpartition := h.partition
      rwa [hreader] at hpartition
    by_cases hfree : t.swap.countFree ≠ 0
    · obtain ⟨i, swap, hpop, hswap, hbuffers⟩ := hpartition.popFree hfree
      have hstack : t.swap.stack ≠ [] := List.length_pos_iff.mp (Nat.pos_of_ne_zero hfree)
      refine ⟨{ t with swap, reader := .borrowed i }, full, ?_, ⟨hswap, ?_, ?_⟩,
        leaves_same rfl (by simp [leaving, hstack])⟩
      · simp [step, getFree, hreader, SyncedSwap.getFree, hfree, hpop]
      · show t.filled = t.left.map Prod.snd ++ full.map swap.buffers
        rw [hbuffers]
        exact h.order
      · intro j hj
        show t.processed.getLast? = some (swap.buffers j)
        rw [hbuffers]
        exact h.processing j hj
    · have hstack : t.swap.stack = [] := List.length_eq_zero_iff.mp (not_not.mp hfree)
      cases full with
      | nil =>
        have hnone : t.swap.countFull = 0 := hpartition.countFull
        have hempty : t.unprocessed = [] := h.unprocessed
        refine preserves_same h ?_ (by simp [leaving, hempty])
        simp only [step, getFree, hreader, SyncedSwap.getFree, hfree, hnone, if_false, ne_eq, not_true_eq_false,
          Option.map_some]
        rw [← hreader]
      | cons i full =>
        obtain ⟨swap, hpop, hswap, hbuffers⟩ := hpartition.popFull
        have hfull : t.swap.countFull ≠ 0 := by simp [hpartition.countFull]
        let t' : Task n := { t with swap, reader := .borrowed i, left := t.left ++ [(.discarded, t.swap.buffers i)] }
        have hinv : Inv t' full := by
          refine ⟨hswap, ?_, ?_⟩
          · show t.filled = (t.left ++ [(Fate.discarded, t.swap.buffers i)]).map Prod.snd ++ full.map swap.buffers
            rw [hbuffers, h.order, List.map_append, List.append_assoc]
            rfl
          · intro j hj
            show List.getLast? (((t.left ++ [(Fate.discarded, t.swap.buffers i)]).filter (·.1 = .processed)).map Prod.snd) =
              some (swap.buffers j)
            rw [hbuffers, filter_discarded]
            exact h.processing j hj
        refine ⟨t', full, ?_, hinv, ?_⟩
        · simp [step, getFree, hreader, SyncedSwap.getFree, hfree, hfull, hpop, t']
        · simp [Leaves, leaving, hreader, hstack, h.unprocessed, t']
  | borrowed i => exact preserves_same h (by simp [step, getFree, hreader]) (by simp [leaving, hreader])
  | read i => exact preserves_same h (by simp [step, getFree, hreader]) (by simp [leaving, hreader])

theorem read_preserves (device : Nat) (bytes : List UInt8) (h : Inv t full) : Preserves t (.read device bytes) := by
  cases hreader : t.reader with
  | borrowed i =>
    have hpartition : t.swap.Partition full (i :: t.processor.toList) := by
      have hpartition := h.partition
      rwa [hreader] at hpartition
    let buffers := Function.update t.swap.buffers i { bytes, device := some device }
    have hother : ∀ j, j ≠ i → buffers j = t.swap.buffers j := by
      intro j hj
      exact Function.update_of_ne hj _ _
    have hfull : full.map buffers = full.map t.swap.buffers := by
      apply List.map_congr_left
      intro j hj
      apply hother
      intro h
      rcases h with rfl
      exact hpartition.notMem_full (List.mem_cons_self) hj
    refine ⟨{ t with swap := { t.swap with buffers }, reader := .read i }, full, ?_,
      ⟨⟨hpartition.ring, hpartition.once⟩, ?_, ?_⟩, leaves_same rfl rfl⟩
    · simp [step, read, hreader, buffers]
    · show t.filled = t.left.map Prod.snd ++ full.map buffers
      rw [hfull]
      exact h.order
    · intro j hj
      have hj' : t.processor = some j := hj
      have hnodup : (i :: t.processor.toList).Nodup := hpartition.nodup.of_append_right
      have hne : j ≠ i := by
        intro h
        rcases h with rfl
        exact (List.nodup_cons.mp hnodup).1 (by simp [hj'])
      show t.processed.getLast? = some (buffers j)
      rw [hother j hne]
      exact h.processing j hj
  | idle => exact preserves_same h (by simp [step, read, hreader]) rfl
  | read i => exact preserves_same h (by simp [step, read, hreader]) rfl

theorem push_preserves (h : Inv t full) : Preserves t .push := by
  cases hreader : t.reader with
  | read i =>
    have hpartition : t.swap.Partition full (i :: t.processor.toList) := by
      have hpartition := h.partition
      rwa [hreader] at hpartition
    by_cases hread : (t.swap.buffers i).bytes ≠ []
    · obtain ⟨swap, hpush, hswap, hbuffers⟩ := hpartition.pushFull
      refine ⟨{ t with swap, reader := .idle, filled := t.filled ++ [t.swap.buffers i] }, full ++ [i], ?_,
        ⟨hswap, ?_, ?_⟩, leaves_same rfl rfl⟩
      · simp [step, push, hreader, hread, hpush]
      · show t.filled ++ [t.swap.buffers i] = t.left.map Prod.snd ++ (full ++ [i]).map swap.buffers
        rw [hbuffers, h.order, List.map_append, List.append_assoc]
        rfl
      · intro j hj
        show t.processed.getLast? = some (swap.buffers j)
        rw [hbuffers]
        exact h.processing j hj
    · obtain ⟨swap, hpush, hswap, hbuffers, -⟩ := hpartition.pushFree
      refine ⟨{ t with swap, reader := .idle }, full, ?_, ⟨hswap, ?_, ?_⟩, leaves_same rfl rfl⟩
      · simp [step, push, hreader, hread, hpush]
      · show t.filled = t.left.map Prod.snd ++ full.map swap.buffers
        rw [hbuffers]
        exact h.order
      · intro j hj
        show t.processed.getLast? = some (swap.buffers j)
        rw [hbuffers]
        exact h.processing j hj
  | idle => exact preserves_same h (by simp [step, push, hreader]) rfl
  | borrowed i => exact preserves_same h (by simp [step, push, hreader]) rfl

theorem getFull_preserves (h : Inv t full) : Preserves t .getFull := by
  cases hprocessor : t.processor with
  | none =>
    have hpartition : t.swap.Partition full t.reader.held := by
      have hpartition := h.partition
      rw [hprocessor] at hpartition
      exact hpartition.perm (by simp)
    cases full with
    | nil =>
      have hnone : t.swap.countFull = 0 := hpartition.countFull
      have hempty : t.unprocessed = [] := h.unprocessed
      refine preserves_same h ?_ (by simp [leaving, hempty])
      simp only [step, getFull, hprocessor, SyncedSwap.getFull, hnone, if_false, ne_eq, not_true_eq_false,
        Option.map_some]
      rw [← hprocessor]
    | cons i full =>
      obtain ⟨swap, hpop, hswap, hbuffers⟩ := hpartition.popFull
      have hfull : t.swap.countFull ≠ 0 := by simp [hpartition.countFull]
      let t' : Task n := { t with swap, processor := some i, left := t.left ++ [(.processed, t.swap.buffers i)] }
      have hinv : Inv t' full := by
        refine ⟨hswap.perm ?_, ?_, ?_⟩
        · exact (List.perm_append_singleton i t.reader.held).symm
        · show t.filled = (t.left ++ [(Fate.processed, t.swap.buffers i)]).map Prod.snd ++ full.map swap.buffers
          rw [hbuffers, h.order, List.map_append, List.append_assoc]
          rfl
        · intro j hj
          obtain rfl : i = j := Option.some_inj.mp hj
          show List.getLast? (((t.left ++ [(Fate.processed, t.swap.buffers i)]).filter (·.1 = .processed)).map Prod.snd) =
            some (swap.buffers i)
          rw [hbuffers, filter_processed, List.getLast?_concat]
      refine ⟨t', full, ?_, hinv, ?_⟩
      · simp [step, getFull, hprocessor, SyncedSwap.getFull, hfull, hpop, t']
      · simp [Leaves, leaving, hprocessor, h.unprocessed, t']
  | some i => exact preserves_same h (by simp [step, getFull, hprocessor]) (by simp [leaving, hprocessor])

theorem pushFree_preserves (h : Inv t full) : Preserves t .pushFree := by
  cases hprocessor : t.processor with
  | some i =>
    have hpartition : t.swap.Partition full (i :: t.reader.held) := by
      have hpartition := h.partition
      rw [hprocessor] at hpartition
      exact hpartition.perm (List.perm_append_singleton i t.reader.held)
    obtain ⟨swap, hpush, hswap, hbuffers, -⟩ := hpartition.pushFree
    refine ⟨{ t with swap, processor := none }, full, ?_, ⟨hswap.perm ?_, ?_, ?_⟩, leaves_same rfl rfl⟩
    · simp [step, pushFree, hprocessor, hpush]
    · simp
    · show t.filled = t.left.map Prod.snd ++ full.map swap.buffers
      rw [hbuffers]
      exact h.order
    · intro j hj
      cases hj
  | none => exact preserves_same h (by simp [step, pushFree, hprocessor]) rfl

theorem step_preserves (e : Event) (h : Inv t full) : Preserves t e := by
  cases e with
  | getFree => exact getFree_preserves h
  | read device bytes => exact read_preserves device bytes h
  | push => exact push_preserves h
  | getFull => exact getFull_preserves h
  | pushFree => exact pushFree_preserves h

/-- Whatever turns the two tasks take, every exchange succeeds, the buffers stay where
    they can be, and the full ones leave the ring in their order. -/
theorem pool_conserved (n : Nat) (es : List Event) : Conserves (start : Task n) ∧
    PartialRun.Through step (fun t e t' => Conserves t' ∧ Leaves t e t') (start : Task n) es := by
  refine ⟨inv_start.conserves, PartialRun.through_of_step (I := fun t => ∃ full, Inv t full) ?_ ⟨[], inv_start⟩ es⟩
  intro t e h
  rcases h with ⟨full, h⟩
  obtain ⟨t', full', hstep, hinv, hleaves⟩ := step_preserves e h
  exact ⟨t', hstep, ⟨full', hinv⟩, hinv.conserves, hleaves⟩

end Task

end Esp32Cam.Uart
