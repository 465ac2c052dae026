/-
  Esp32Cam.Ut.WorkQueue — the work queue and the order it takes its tasks in.

  The queue is an array of FIFOs, one for each priority; a task is taken from the first
  FIFO that is not empty, and the array is in the order of the enumerator's values. The
  thread takes a task, invokes it, and pushes it back where it returns true.

  `Books` keeps beside the queue what has been pushed and not taken, in the order it came.
  Nothing is lost or duplicated (`accounted`). What is taken is the oldest of the lowest
  priority there is (`pop_takes_the_lowest`): `priority_order_iff`, the queue serves a history in
  the order of priority exactly when it never takes a task while others of another
  priority are queued. `the_lowest_priority_goes_first` has one of each.
-/

import Esp32Cam.Lib.Bands
import Esp32Cam.Lib.Run

namespace Esp32Cam.Ut.Thr.Wq

open Esp32Cam.Lib

inductive TaskPrio where
  | lowest
  | default
  | tracker
  deriving DecidableEq, Repr

def TaskPrio.value : TaskPrio → Nat
  | .lowest => 0
  | .default => 1
  | .tracker => 2

/-- The priorities by the index of their queue. -/
def TaskPrio.all : List TaskPrio := [.lowest, .default, .tracker]

structure TaskVariant (T : Type) where
  task : T
  priority : TaskPrio
  deriving DecidableEq, Repr

structure PrioTaskVariantQueue (T : Type) where
  queues : TaskPrio → List (TaskVariant T) := fun _ => []

/-- `task` is what the thread has taken from the queue, and invokes. -/
structure WorkQueue (T : Type) where
  queue : PrioTaskVariantQueue T := {}
  task : Option (TaskVariant T) := none

inductive Op (T : Type) where
  | push (aTask : TaskVariant T)
  | pop
  /-- The task that has been taken returns. -/
  | finish (again : Bool)
  deriving DecidableEq, Repr

/-- What has been pushed and not taken, in the order it came; what the callers have pushed; and what is over. -/
structure Books (T : Type) where
  wq : WorkQueue T := {}
  present : List (TaskVariant T) := []
  pushed : List (TaskVariant T) := []
  finished : List (TaskVariant T) := []

variable {T : Type}

namespace PrioTaskVariantQueue

def push (q : PrioTaskVariantQueue T) (aTask : TaskVariant T) : PrioTaskVariantQueue T :=
  ⟨Function.update q.queues aTask.priority (q.queues aTask.priority ++ [aTask])⟩

def pop (q : PrioTaskVariantQueue T) : Option (TaskVariant T × PrioTaskVariantQueue T) :=
  (takeFirst q.queues TaskPrio.all).map fun (aTask, queues) => (aTask, ⟨queues⟩)

def contents (q : PrioTaskVariantQueue T) : List (TaskVariant T) := TaskPrio.all.flatMap q.queues

/-- The queue holds these tasks, which came in this order. -/
def Holds (q : PrioTaskVariantQueue T) (present : List (TaskVariant T)) : Prop :=
  Bands TaskVariant.priority q.queues present

variable {q : PrioTaskVariantQueue T} {present : List (TaskVariant T)}

theorem mem_all (p : TaskPrio) : p ∈ TaskPrio.all := by cases p <;> simp [TaskPrio.all]

theorem Holds.init : Holds ({} : PrioTaskVariantQueue T) [] := Bands.nil _

theorem Holds.push (h : q.Holds present) (aTask : TaskVariant T) : (q.push aTask).Holds (present ++ [aTask]) :=
  Bands.push h aTask

theorem Holds.contents (h : q.Holds present) : q.contents.Perm present :=
  Bands.perm h (by decide) fun aTask _ => mem_all aTask.priority

/-- A priority that comes earlier in the array is a lower one. -/
theorem value_of_order {p p' : TaskPrio} {earlier later : List TaskPrio} (h : TaskPrio.all = earlier ++ p :: later)
    (hp' : p' ∉ earlier) : p.value ≤ p'.value := by
  have hsorted : TaskPrio.all.Pairwise (fun a b => a.value ≤ b.value) := by decide
  have hmem := mem_all p'
  rw [h] at hmem hsorted
  rcases List.mem_append.mp hmem with hearlier | hlater
  · exact absurd hearlier hp'
  · rcases List.mem_cons.mp hlater with rfl | hlater
    · exact Nat.le_refl _
    · exact (List.pairwise_cons.mp (List.pairwise_append.mp hsorted).2.1).1 p' hlater

theorem value_inj {p p' : TaskPrio} (h : p.value = p'.value) : p = p' := by
  cases p <;> cases p' <;> simp [TaskPrio.value] at h ⊢

/-- A pop takes the oldest task of the lowest priority. -/
theorem pop_takes_the_lowest (h : q.Holds present) :
    (q.pop = none ∧ present = []) ∨
    ∃ before aTask after q', present = before ++ aTask :: after ∧
      (∀ t ∈ before, aTask.priority.value < t.priority.value) ∧
      (∀ t ∈ after, aTask.priority.value ≤ t.priority.value) ∧
      q.pop = some (aTask, q') ∧ q'.Holds (before ++ after) := by
  unfold pop
  rcases Bands.takeFirst_cases h TaskPrio.all with ⟨htake, hkeys⟩ |
    ⟨earlier, later, before, after, aTask, hall, hearlier, hpresent, hbefore, queues, htake, hholds⟩
  · refine Or.inl ⟨by simp [htake], ?_⟩
    apply List.eq_nil_iff_forall_not_mem.mpr
    intro t ht
    exact hkeys t ht (mem_all t.priority)
  · have hle : ∀ t ∈ present, aTask.priority.value ≤ t.priority.value := by
      intro t ht
      exact value_of_order hall (hearlier t ht)
    refine Or.inr ⟨before, aTask, after, ⟨queues⟩, hpresent, ?_, ?_, by simp [htake], hholds⟩
    · intro t ht
      have hlow := hle t (by simp [hpresent, ht])
      have hne : aTask.priority.value ≠ t.priority.value := fun he => hbefore t ht (value_inj he).symm
      omega
    · intro t ht
      exact hle t (by simp [hpresent, ht])

theorem contents_push (q : PrioTaskVariantQueue T) (aTask : TaskVariant T) :
    (q.push aTask).contents.Perm (aTask :: q.contents) := by
  obtain ⟨task, priority⟩ := aTask
  cases priority with
  | lowest =>
    simp [push, PrioTaskVariantQueue.contents, TaskPrio.all]
  | default =>
    have hmiddle := @List.perm_middle _ (⟨task, .default⟩ : TaskVariant T)
      (q.queues .lowest ++ q.queues .default) (q.queues .tracker)
    simpa [push, PrioTaskVariantQueue.contents, TaskPrio.all] using hmiddle
  | tracker =>
    have hmiddle := @List.perm_middle _ (⟨task, .tracker⟩ : TaskVariant T) q.contents []
    simpa [push, PrioTaskVariantQueue.contents, TaskPrio.all] using hmiddle

/-- A task is taken from the front of its queue, and those before it in the array are empty. -/
theorem pop_cases {aTask : TaskVariant T} {q' : PrioTaskVariantQueue T} (h : q.pop = some (aTask, q')) :
    ∃ p ts, q.queues p = aTask :: ts ∧ q' = ⟨Function.update q.queues p ts⟩ ∧
      ∀ p', p'.value < p.value → q.queues p' = [] := by
  unfold pop TaskPrio.all takeFirst takeFirst takeFirst takeFirst at h
  cases hlowest : q.queues .lowest with
  | cons t ts =>
    simp only [hlowest, Option.map_some, Option.some.injEq, Prod.mk.injEq] at h
    obtain ⟨rfl, rfl⟩ := h
    refine ⟨.lowest, ts, hlowest, rfl, ?_⟩
    intro p' hp'
    simp [TaskPrio.value] at hp'
  | nil =>
    cases hdefault : q.queues .default with
    | cons t ts =>
      simp only [hlowest, hdefault, Option.map_some, Option.some.injEq, Prod.mk.injEq] at h
      obtain ⟨rfl, rfl⟩ := h
      refine ⟨.default, ts, hdefault, rfl, ?_⟩
      intro p' hp'
      cases p' <;> simp [TaskPrio.value, hlowest] at hp' ⊢
    | nil =>
      cases htracker : q.queues .tracker with
      | cons t ts =>
        simp only [hlowest, hdefault, htracker, Option.map_some, Option.some.injEq, Prod.mk.injEq] at h
        obtain ⟨rfl, rfl⟩ := h
        refine ⟨.tracker, ts, htracker, rfl, ?_⟩
        intro p' hp'
        cases p' <;> simp [TaskPrio.value, hlowest, hdefault] at hp' ⊢
      | nil => simp [hlowest, hdefault, htracker] at h

theorem pop_none (h : q.pop = none) (p : TaskPrio) : q.queues p = [] := by
  unfold pop TaskPrio.all takeFirst takeFirst takeFirst takeFirst at h
  cases hlowest : q.queues .lowest with
  | cons t ts => simp [hlowest] at h
  | nil =>
    cases hdefault : q.queues .default with
    | cons t ts => simp [hlowest, hdefault] at h
    | nil =>
      cases htracker : q.queues .tracker with
      | cons t ts => simp [hlowest, hdefault, htracker] at h
      | nil =>
        cases p with
        | lowest => exact hlowest
        | default => exact hdefault
        | tracker => exact htracker

theorem contents_pop {aTask : TaskVariant T} {q' : PrioTaskVariantQueue T} (h : q.pop = some (aTask, q')) :
    q.contents.Perm (aTask :: q'.contents) := by
  obtain ⟨p, ts, hp, rfl, -⟩ := pop_cases h
  cases p with
  | lowest => simp [PrioTaskVariantQueue.contents, TaskPrio.all, hp]
  | default =>
    simp [PrioTaskVariantQueue.contents, TaskPrio.all, hp]
  | tracker =>
    have hmiddle := @List.perm_middle _ aTask (q.queues .lowest ++ q.queues .default) ts
    simpa [PrioTaskVariantQueue.contents, TaskPrio.all, hp] using hmiddle

end PrioTaskVariantQueue

namespace WorkQueue

def push (w : WorkQueue T) (aTask : TaskVariant T) : WorkQueue T := { w with queue := w.queue.push aTask }

def pop (w : WorkQueue T) : WorkQueue T :=
  match w.queue.pop with
  | some (aTask, queue) => { queue, task := some aTask }
  | none => { w with task := none }

/-- `run`, behind the invocation: the task is pushed back where it has returned true. -/
def finish (w : WorkQueue T) (again : Bool) : WorkQueue T :=
  match w.task with
  | some aTask => if again then { queue := w.queue.push aTask, task := none } else { w with task := none }
  | none => w

end WorkQueue

/-! ## Histories -/

namespace Books

/-- The oldest task of the highest priority, where there is one. -/
def IsNext (present : List (TaskVariant T)) : Option (TaskVariant T) → Prop
  | none => present = []
  | some aTask => ∃ before after, present = before ++ aTask :: after ∧
      (∀ t ∈ before, t.priority.value < aTask.priority.value) ∧ ∀ t ∈ after, t.priority.value ≤ aTask.priority.value

/-- Every task is queued, with the thread, or over, as often as it has been pushed, and the
    queue holds what has been pushed and not taken. -/
structure Accounted (b : Books T) : Prop where
  queued : b.wq.queue.contents.Perm b.present
  pushed : b.pushed.Perm (b.wq.queue.contents ++ b.wq.task.toList ++ b.finished)

def OnePriority (present : List (TaskVariant T)) : Prop := ∀ t ∈ present, ∀ t' ∈ present, t.priority = t'.priority

variable {b : Books T} {present : List (TaskVariant T)}

/-- The list stands for the queue, and every task has its place. -/
structure Kept (b : Books T) : Prop where
  holds : b.wq.queue.Holds b.present
  pushed : b.pushed.Perm (b.present ++ b.wq.task.toList ++ b.finished)

theorem Kept.accounted (h : b.Kept) : b.Accounted where
  queued := h.holds.contents
  pushed := h.pushed.trans (List.Perm.append_right _ (List.Perm.append_right _ h.holds.contents.symm))

theorem Kept.init : (({} : Books T)).Kept := ⟨PrioTaskVariantQueue.Holds.init, List.Perm.nil⟩

/-- The lowest of the priorities is the highest where there is one. -/
theorem isNext_iff (h : b.wq.queue.Holds b.present) :
    IsNext b.present (b.wq.queue.pop.map Prod.fst) ↔ OnePriority b.present := by
  rcases PrioTaskVariantQueue.pop_takes_the_lowest h with ⟨hpop, hnil⟩ |
    ⟨before, aTask, after, q', hpresent, hbefore, hafter, hpop, -⟩
  · simp [hpop, IsNext, hnil, OnePriority]
  · have hmin : ∀ t ∈ b.present, aTask.priority.value ≤ t.priority.value := by
      intro t ht
      rw [hpresent] at ht
      rcases List.mem_append.mp ht with ht | ht
      · exact Nat.le_of_lt (hbefore t ht)
      · rcases List.mem_cons.mp ht with rfl | ht
        · exact Nat.le_refl _
        · exact hafter t ht
    simp only [hpop, Option.map_some, IsNext]
    constructor
    · intro ⟨before', after', hpresent', hbefore', hafter'⟩
      have hmax : ∀ t ∈ b.present, t.priority = aTask.priority := by
        intro t ht
        have hlow := hmin t ht
        have hhigh : t.priority.value ≤ aTask.priority.value := by
          rw [hpresent'] at ht
          rcases List.mem_append.mp ht with ht | ht
          · exact Nat.le_of_lt (hbefore' t ht)
          · rcases List.mem_cons.mp ht with rfl | ht
            · exact Nat.le_refl _
            · exact hafter' t ht
        exact PrioTaskVariantQueue.value_inj (by omega)
      intro t ht t' ht'
      rw [hmax t ht, hmax t' ht']
    · intro hone
      have hsame : ∀ t ∈ b.present, t.priority = aTask.priority := fun t ht => hone t ht aTask (by simp [hpresent])
      have hnone : before = [] := by
        apply List.eq_nil_iff_forall_not_mem.mpr
        intro t ht
        have hlt := hbefore t ht
        rw [hsame t (by simp [hpresent, ht])] at hlt
        omega
      refine ⟨[], after, by simp [hpresent, hnone], by simp, ?_⟩
      intro t ht
      exact Nat.le_of_eq (congrArg TaskPrio.value (hsame t (by simp [hpresent, ht])))

variable [DecidableEq T]

def step (b : Books T) : Op T → Books T
  | .push aTask =>
    { b with wq := b.wq.push aTask, present := b.present ++ [aTask], pushed := b.pushed ++ [aTask] }
  | .pop =>
    { b with wq := b.wq.pop, finished := b.finished ++ b.wq.task.toList,
             present := (b.wq.queue.pop.map Prod.fst).elim b.present b.present.erase }
  | .finish again =>
    match b.wq.task with
    | some aTask =>
      { b with wq := b.wq.finish again, present := if again then b.present ++ [aTask] else b.present,
               finished := if again then b.finished else b.finished ++ [aTask] }
    | none => b

/-- The step pops what is next, and nothing is lost or duplicated. -/
structure InOrder (b : Books T) (op : Op T) : Prop where
  pops : op = .pop → IsNext b.present (b.wq.queue.pop.map Prod.fst)
  accounted : (b.step op).Accounted

/-- The first of its kind is erased. -/
theorem erase_first {before after : List (TaskVariant T)} {aTask : TaskVariant T}
    (h : ∀ t ∈ before, aTask.priority.value < t.priority.value) :
    (before ++ aTask :: after).erase aTask = before ++ after := by
  have hnot : aTask ∉ before := fun hmem => Nat.lt_irrefl _ (h aTask hmem)
  rw [List.erase_append_right _ hnot, List.erase_cons_head]

theorem Kept.push (h : b.Kept) (aTask : TaskVariant T) : (b.step (.push aTask)).Kept := by
  refine ⟨h.holds.push aTask, ?_⟩
  apply List.perm_iff_count.mpr
  intro t
  have hcount := List.perm_iff_count.mp h.pushed t
  simp only [Books.step, WorkQueue.push, List.count_append] at hcount ⊢
  omega

theorem Kept.pop (h : b.Kept) : (b.step .pop).Kept := by
  rcases PrioTaskVariantQueue.pop_takes_the_lowest h.holds with ⟨hpop, hnil⟩ |
    ⟨before, aTask, after, q', hpresent, hbefore, -, hpop, hholds⟩
  · refine ⟨?_, ?_⟩
    · simpa [Books.step, WorkQueue.pop, hpop] using h.holds
    · have hpushed := h.pushed.trans (List.Perm.append_right _ List.perm_append_comm)
      simpa [Books.step, WorkQueue.pop, hpop, hnil] using h.pushed.trans (by simpa [hnil] using List.perm_append_comm)
  · have herase : b.present.erase aTask = before ++ after := by rw [hpresent, erase_first hbefore]
    refine ⟨?_, ?_⟩
    · simpa [Books.step, WorkQueue.pop, hpop, herase] using hholds
    · apply List.perm_iff_count.mpr
      intro t
      have hcount := List.perm_iff_count.mp h.pushed t
      simp only [hpresent, List.count_append, List.count_cons] at hcount
      simp only [Books.step, WorkQueue.pop, hpop, herase, Option.map_some, Option.elim_some, Option.toList_some,
        List.count_append, List.count_cons, List.count_nil]
      omega

theorem Kept.finish (h : b.Kept) (again : Bool) : (b.step (.finish again)).Kept := by
  unfold Books.step
  cases htask : b.wq.task with
  | none => simpa [htask] using h
  | some aTask =>
    cases again with
    | true =>
      refine ⟨by simpa [WorkQueue.finish, htask] using h.holds.push aTask, ?_⟩
      apply List.perm_iff_count.mpr
      intro t
      have hcount := List.perm_iff_count.mp h.pushed t
      simp only [htask, Option.toList_some, List.count_append] at hcount
      simp only [WorkQueue.finish, htask, if_true, Option.toList_none, List.count_append, List.count_nil]
      omega
    | false =>
      refine ⟨by simpa [WorkQueue.finish, htask] using h.holds, ?_⟩
      apply List.perm_iff_count.mpr
      intro t
      have hcount := List.perm_iff_count.mp h.pushed t
      simp only [htask, Option.toList_some, List.count_append] at hcount
      simp only [WorkQueue.finish, htask, Bool.false_eq_true, if_false, Option.toList_none, List.count_append,
        List.count_nil]
      omega

theorem Kept.step (h : b.Kept) (op : Op T) : (b.step op).Kept := by
  cases op with
  | push aTask => exact h.push aTask
  | pop => exact h.pop
  | finish again => exact h.finish again

/-- **Accounting.** Whatever is pushed, popped and pushed back, every task has its place. -/
theorem accounted (ops : List (Op T)) : (run Books.step ({} : Books T) ops).Accounted :=
  (always_of_step (fun _ op h => h.step op) Kept.init ops).last.accounted

def NoChoice (b : Books T) (op : Op T) : Prop := op = .pop → OnePriority b.present

/-- **Order.** A history is served in the order of priority, nothing lost or duplicated,
    exactly when every pop finds tasks of one priority. -/
theorem priority_order_iff (ops : List (Op T)) :
    Along Books.step InOrder ({} : Books T) ops ↔ Along Books.step NoChoice ({} : Books T) ops := by
  refine along_iff (I := Kept) (fun _ op h => h.step op) ?_ Kept.init
  intro b op h
  constructor
  · intro hin hop
    exact (isNext_iff h.holds).mp (hin.pops hop)
  · intro hno
    exact ⟨fun hop => (isNext_iff h.holds).mpr (hno hop), (h.step op).accounted⟩

/-- A task of the lowest priority goes before the tracker's, which has been waiting for longer. -/
theorem the_lowest_priority_goes_first :
    ¬ Along Books.step InOrder ({} : Books Nat) [.push ⟨0, .tracker⟩, .push ⟨1, .lowest⟩, .pop] := by
  intro h
  have hkept : (run Books.step ({} : Books Nat) [.push ⟨0, .tracker⟩, .push ⟨1, .lowest⟩]).Kept :=
    (always_of_step (fun _ op h => h.step op) Kept.init _).last
  have hone := (isNext_iff hkept.holds).mp (h.2.2.1.pops rfl)
  have hsame := hone ⟨0, .tracker⟩ (by decide) ⟨1, .lowest⟩ (by decide)
  cases hsame

end Books

end Esp32Cam.Ut.Thr.Wq
