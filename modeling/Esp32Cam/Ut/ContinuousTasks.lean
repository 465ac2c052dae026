/-
  Esp32Cam.Ut.ContinuousTasks — tasks that are invoked for as long as they return true.

  A continuous task is pushed in a closure that invokes it once and, where it has
  returned true, pushes a new closure of the same kind. Whoever waits for it is released by
  the invocation that returns false. Other threads push while a task is invoked, and the
  task itself may.

  Every closure has the number of the task it is of. `Watched` follows one continuous task
  from the moment it is pushed; `ahead` is what it has to let go first: the tasks of the
  priority the caller has passed that were queued when its closure was.

  The priority is not passed on: every closure is queued at the default one.
  `continuous_iff`: a continuous task is polled until it returns false, at the priority it
  has been given, behind all that was queued at it, and its caller released once,
  whatever else is pushed and runs, exactly when that priority is the default.
-/

import Mathlib.Data.List.Nodup
import Esp32Cam.Ut.WorkQueue

namespace Esp32Cam.Ut.Thr.Wq

open Esp32Cam.Lib

/-- What is pushed: a task, or the closure of a continuous one, someone waiting for it or not. -/
inductive Closure where
  | task (id : Nat)
  | poll (id : Nat) (wait : Bool)
  deriving DecidableEq, Repr

def Closure.id : Closure → Nat
  | .task id => id
  | .poll id _ => id

inductive Event where
  | push (aPrio : TaskPrio)
  | pushContinuous (aPrio : TaskPrio)
  | pushContinuousWait (aPrio : TaskPrio)
  /-- The thread takes the next task. -/
  | pop
  /-- The task it has taken returns; `again` is what a continuous task returns. -/
  | finish (again : Bool)
  deriving DecidableEq, Repr

/-- The queue, how many tasks there have been, and what has become of the continuous ones. -/
structure World where
  wq : WorkQueue Closure := {}
  next : Nat := 0
  polls : List (Nat × Bool) := []
  queuedAt : List (Nat × TaskPrio) := []
  released : List Nat := []

namespace World

def push (s : World) (aTask : Closure) (aPrio : TaskPrio) : World := { s with wq := s.wq.push ⟨aTask, aPrio⟩ }

/-- The closure is pushed without `aPrio`, at the priority that is the default of `push`. -/
def pushContinuous (s : World) (id : Nat) (wait : Bool) (_aPrio : TaskPrio) : World :=
  { s.push (.poll id wait) .default with queuedAt := s.queuedAt ++ [(id, .default)] }

def poll (s : World) (id : Nat) (wait again : Bool) : World :=
  let s := { s with polls := s.polls ++ [(id, again)] }
  if again then s.pushContinuous id wait .default
  else if wait then { s with released := s.released ++ [id] }
  else s

def step (s : World) : Event → World
  | .push aPrio => { s.push (.task s.next) aPrio with next := s.next + 1 }
  | .pushContinuous aPrio => { s.pushContinuous s.next false aPrio with next := s.next + 1 }
  | .pushContinuousWait aPrio => { s.pushContinuous s.next true aPrio with next := s.next + 1 }
  | .pop => if s.wq.task.isNone then { s with wq := s.wq.pop } else s
  | .finish again =>
    match s.wq.task with
    | some ⟨.poll id wait, _⟩ =>
      let s := s.poll id wait again
      { s with wq := s.wq.finish false }
    | some ⟨.task _, _⟩ => { s with wq := s.wq.finish false }
    | none => s

/-- The numbers of the tasks queued at a priority, in their order. -/
def band (s : World) (p : TaskPrio) : List Nat := (s.wq.queue.queues p).map (·.task.id)

/-- All that is queued or with the thread. -/
def pending (s : World) : List Closure := (s.wq.queue.contents ++ s.wq.task.toList).map (·.task)

def pollsOf (s : World) (id : Nat) : List Bool := (s.polls.filter (·.1 = id)).map (·.2)

def queuedAtOf (s : World) (id : Nat) : List TaskPrio := (s.queuedAt.filter (·.1 = id)).map (·.2)

def taken (s : World) : Event → Option Nat
  | .pop => if s.wq.task.isNone then s.wq.queue.pop.map (·.1.task.id) else none
  | _ => none

def repushed (s : World) : Event → Option Nat
  | .finish true => s.wq.task.bind fun t => match t.task with
    | .poll id _ => some id
    | .task _ => none
  | _ => none

end World

/-- A continuous task, and what it has to let go first. -/
structure Watched where
  world : World
  id : Nat
  prio : TaskPrio
  wait : Bool
  ahead : List Nat

namespace Watched

def start (s : World) (prio : TaskPrio) (wait : Bool) : Watched where
  world := s.step (if wait then .pushContinuousWait prio else .pushContinuous prio)
  id := s.next
  prio
  wait
  ahead := s.band prio

def step (w : Watched) (e : Event) : Watched :=
  { w with
    world := w.world.step e
    ahead := match w.world.taken e with
      | some id => w.ahead.erase id
      | none => if w.world.repushed e = some w.id then w.world.band w.prio else w.ahead }

def isOver (w : Watched) : Bool := false ∈ w.world.pollsOf w.id

def invocations (w : Watched) : Nat := (w.world.pollsOf w.id).length

/-- The thread takes tasks and they return, as long as nothing new is pushed. -/
def turns (rs : List Bool) : List Event := rs.flatMap fun again => [.pop, .finish again]

/-- The task is pending until it has returned false and is not invoked behind that, it is
    invoked again within some number of turns until then, it is queued at its priority, and
    whoever waits for it is released once. -/
structure Polled (w : Watched) : Prop where
  pending : (w.world.pending.map Closure.id).count w.id = if w.isOver then 0 else 1
  polls : ∀ again ∈ (w.world.pollsOf w.id).dropLast, again = true
  comes : w.isOver = false → ∃ n, ∀ rs : List Bool, n ≤ rs.length → w.invocations < (run step w (turns rs)).invocations
  queuedAt : ∀ p ∈ w.world.queuedAtOf w.id, p = w.prio
  released : w.world.released.count w.id = if w.wait && w.isOver then 1 else 0

/-- When the task is taken, all that was queued before it has been. -/
def Fair (w : Watched) (e : Event) : Prop := w.world.taken e = some w.id → w.ahead = []

end Watched

/-! ## What is pending -/

namespace World

variable {s : World} {e : Event}

theorem pending_push (s : World) (t : TaskVariant Closure) :
    ({ s with wq := s.wq.push t } : World).pending.Perm (t.task :: s.pending) := by
  have hcontents := (PrioTaskVariantQueue.contents_push s.wq.queue t).append_right s.wq.task.toList
  simpa [pending, WorkQueue.push] using hcontents.map TaskVariant.task

/-- What the thread takes stays pending. -/
theorem pending_pop (htask : s.wq.task = none) : ({ s with wq := s.wq.pop } : World).pending.Perm s.pending := by
  unfold WorkQueue.pop
  cases hpop : s.wq.queue.pop with
  | none => simp [pending, htask]
  | some r =>
    obtain ⟨t, q'⟩ := r
    have hcontents := (PrioTaskVariantQueue.contents_pop hpop).trans (List.perm_append_singleton t q'.contents).symm
    simpa [pending, htask] using (hcontents.map TaskVariant.task).symm

theorem pending_finish {t : TaskVariant Closure} (htask : s.wq.task = some t) :
    s.pending.Perm (t.task :: ({ s with wq := s.wq.finish false } : World).pending) := by
  simp [pending, WorkQueue.finish, htask]

theorem band_push (s : World) (t : TaskVariant Closure) (p : TaskPrio) :
    ({ s with wq := s.wq.push t } : World).band p = if t.priority = p then s.band p ++ [t.task.id] else s.band p := by
  by_cases hp : t.priority = p
  · subst hp
    simp [band, WorkQueue.push, PrioTaskVariantQueue.push]
  · simp [band, WorkQueue.push, PrioTaskVariantQueue.push, Function.update_of_ne (Ne.symm hp), hp]

/-- A task leaves the front of its queue, and the queues before that are empty. -/
theorem taken_pop {id : Nat} (h : s.taken .pop = some id) :
    s.wq.task = none ∧ ∃ p rest, s.band p = id :: rest ∧ (∀ p', p'.value < p.value → s.band p' = []) ∧
      (s.step .pop).band p = rest ∧ (∀ p', p' ≠ p → (s.step .pop).band p' = s.band p') ∧
      (s.step .pop).wq.task.map (·.task.id) = some id := by
  unfold taken at h
  cases htask : s.wq.task with
  | some t => simp [htask] at h
  | none =>
    cases hpop : s.wq.queue.pop with
    | none => simp [htask, hpop] at h
    | some r =>
      obtain ⟨t, q'⟩ := r
      simp only [htask, hpop, Option.isNone_none, if_true, Option.map_some, Option.some.injEq] at h
      subst h
      obtain ⟨p, ts, hp, rfl, hbefore⟩ := PrioTaskVariantQueue.pop_cases hpop
      refine ⟨rfl, p, ts.map (·.task.id), by simp [band, hp], ?_, ?_, ?_, ?_⟩
      · intro p' hp'
        simp [band, hbefore p' hp']
      · simp [step, htask, WorkQueue.pop, hpop, band]
      · intro p' hp'
        simp [step, htask, WorkQueue.pop, hpop, band, Function.update_of_ne hp']
      · simp [step, htask, WorkQueue.pop, hpop]

/-- A pop that takes nothing changes nothing. -/
theorem step_of_not_taken (h : s.taken .pop = none) : s.step .pop = s := by
  unfold taken at h
  cases htask : s.wq.task with
  | some t => simp [step, htask]
  | none =>
    have hpop : s.wq.queue.pop = none := by simpa [htask] using h
    obtain ⟨⟨queue, task⟩, next, polls, queuedAt, released⟩ := s
    simp only at htask hpop
    simp [step, htask, WorkQueue.pop, hpop]

/-- The task the thread has taken is over. -/
theorem ended {t : TaskVariant Closure} {again : Bool} (htask : s.wq.task = some t)
    (h : s.repushed (.finish again) = none) :
    s.pending.Perm (t.task :: (s.step (.finish again)).pending) ∧ (s.step (.finish again)).next = s.next ∧
      (s.step (.finish again)).band = s.band ∧ (s.step (.finish again)).queuedAt = s.queuedAt ∧
      (s.step (.finish again)).wq.task = none ∧
      match t.task with
      | .task _ => (s.step (.finish again)).polls = s.polls ∧ (s.step (.finish again)).released = s.released
      | .poll id wait => (s.step (.finish again)).polls = s.polls ++ [(id, false)] ∧
          (s.step (.finish again)).released = s.released ++ if wait then [id] else [] := by
  have hpending := pending_finish htask
  obtain ⟨task, priority⟩ := t
  cases task with
  | task id =>
    have hstep : s.step (.finish again) = { s with wq := s.wq.finish false } := by simp [step, htask]
    rw [hstep]
    refine ⟨hpending, rfl, ?_, rfl, by simp [WorkQueue.finish, htask], rfl, rfl⟩
    simp [band, WorkQueue.finish, htask, funext_iff]
  | poll id wait =>
    cases again with
    | true => simp [repushed, htask] at h
    | false =>
      cases wait with
      | true =>
        have hstep : s.step (.finish false) = { s with
            wq := s.wq.finish false, polls := s.polls ++ [(id, false)], released := s.released ++ [id] } := by
          simp [step, htask, poll]
        rw [hstep]
        refine ⟨hpending, rfl, ?_, rfl, by simp [WorkQueue.finish, htask], rfl, by simp⟩
        simp [band, WorkQueue.finish, htask, funext_iff]
      | false =>
        have hstep : s.step (.finish false) = { s with
            wq := s.wq.finish false, polls := s.polls ++ [(id, false)] } := by simp [step, htask, poll]
        rw [hstep]
        refine ⟨hpending, rfl, ?_, rfl, by simp [WorkQueue.finish, htask], rfl, by simp⟩
        simp [band, WorkQueue.finish, htask, funext_iff]

/-- The task the thread has taken is pushed again, at the default priority. -/
theorem pushed_again {id : Nat} {again : Bool} (h : s.repushed (.finish again) = some id) :
    ∃ wait, s.wq.task.map (·.task) = some (.poll id wait) ∧ (s.step (.finish again)).pending.Perm s.pending ∧
      (s.step (.finish again)).next = s.next ∧ (s.step (.finish again)).wq.task = none ∧
      (s.step (.finish again)).band .default = s.band .default ++ [id] ∧
      (∀ p, p ≠ .default → (s.step (.finish again)).band p = s.band p) ∧
      (s.step (.finish again)).polls = s.polls ++ [(id, true)] ∧
      (s.step (.finish again)).queuedAt = s.queuedAt ++ [(id, .default)] ∧
      (s.step (.finish again)).released = s.released := by
  cases again with
  | false => simp [repushed] at h
  | true =>
    obtain ⟨t, htask, ht⟩ := Option.bind_eq_some_iff.mp h
    obtain ⟨task, priority⟩ := t
    cases task with
    | task i => cases ht
    | poll i wait =>
      obtain rfl : i = id := Option.some_inj.mp ht
      have hfinish := pending_finish htask
      have hpush := pending_push { s with wq := s.wq.finish false } ⟨.poll i wait, .default⟩
      refine ⟨wait, by simp [htask], ?_, ?_, ?_, ?_, ?_, ?_, ?_, ?_⟩
      · refine List.Perm.trans ?_ (hpush.trans hfinish.symm)
        simp [step, htask, poll, pushContinuous, push, WorkQueue.push, WorkQueue.finish, pending]
      case refine_5 =>
        intro p hp
        simp [step, htask, poll, pushContinuous, push, WorkQueue.push, WorkQueue.finish, band,
          PrioTaskVariantQueue.push, Function.update_of_ne hp]
      all_goals simp [step, htask, poll, pushContinuous, push, WorkQueue.push, WorkQueue.finish, band,
        PrioTaskVariantQueue.push, Closure.id]

theorem finish_of_none (htask : s.wq.task = none) (again : Bool) :
    s.step (.finish again) = s ∧ s.repushed (.finish again) = none := by
  refine ⟨by simp [step, htask], ?_⟩
  cases again <;> simp [repushed, htask]

/-- The thread is free again. -/
theorem finish_task (s : World) (again : Bool) : (s.step (.finish again)).wq.task = none := by
  cases htask : s.wq.task with
  | none =>
    rw [(finish_of_none htask again).1]
    exact htask
  | some t =>
    cases hrepushed : s.repushed (.finish again) with
    | none =>
      obtain ⟨-, -, -, -, hnone, -⟩ := ended htask hrepushed
      exact hnone
    | some id =>
      obtain ⟨-, -, -, -, hnone, -⟩ := pushed_again hrepushed
      exact hnone

/-- An invocation is entered with what it has returned. -/
theorem pollsOf_finish {t : TaskVariant Closure} {id : Nat} {wait : Bool} (htask : s.wq.task = some t)
    (hclosure : t.task = .poll id wait) (again : Bool) :
    (s.step (.finish again)).pollsOf id = s.pollsOf id ++ [again] := by
  obtain ⟨task, priority⟩ := t
  obtain rfl : task = .poll id wait := hclosure
  have hpolls : (s.step (.finish again)).polls = s.polls ++ [(id, again)] := by
    cases again <;> cases wait <;> simp [step, htask, poll, pushContinuous, push]
  simp [pollsOf, hpolls]

/-- A task with a new number is pushed: the numbers stay different, and below the next one. -/
theorem push_fresh (hnodup : (s.pending.map Closure.id).Nodup) (hfresh : ∀ c ∈ s.pending, c.id < s.next)
    {c : Closure} (hc : c.id = s.next) (p : TaskPrio) :
    ((s.push c p).pending.map Closure.id).Nodup ∧ ∀ c' ∈ (s.push c p).pending, c'.id < s.next + 1 := by
  have hpending : (s.push c p).pending.Perm (c :: s.pending) := pending_push s ⟨c, p⟩
  have hnew : c.id ∉ s.pending.map Closure.id := by
    intro hmem
    obtain ⟨c', hc', heq⟩ := List.mem_map.mp hmem
    have hlt := hfresh c' hc'
    omega
  refine ⟨(hpending.map Closure.id).nodup_iff.mpr (List.nodup_cons.mpr ⟨hnew, hnodup⟩), ?_⟩
  intro c' hc'
  rcases List.mem_cons.mp (hpending.mem_iff.mp hc') with rfl | hmem
  · omega
  · exact Nat.lt_succ_of_lt (hfresh c' hmem)

end World

/-! ## One task among the others -/

namespace Watched

/-- Every task has a number of its own, the continuous task `id` among them. -/
structure Numbered (id : Nat) (wait : Bool) (s : World) : Prop where
  nodup : (s.pending.map Closure.id).Nodup
  fresh : ∀ c ∈ s.pending, c.id < s.next
  known : id < s.next
  kind : ∀ c ∈ s.pending, c.id = id → c = .poll id wait

/-- The numbers are kept where nothing new is pending. -/
theorem Numbered.keep {id : Nat} {wait : Bool} {s s' : World} (h : Numbered id wait s)
    (hnodup : (s'.pending.map Closure.id).Nodup) (hsub : ∀ c ∈ s'.pending, c ∈ s.pending) (hnext : s'.next = s.next) :
    Numbered id wait s' where
  nodup := hnodup
  fresh := by
    intro c hc
    rw [hnext]
    exact h.fresh c (hsub c hc)
  known := by
    rw [hnext]
    exact h.known
  kind := by
    intro c hc
    exact h.kind c (hsub c hc)

/-- The watched task is with the thread, or queued behind what it has to let go first, until
    it has returned false. -/
structure Sound (w : Watched) : Prop where
  prio : w.prio = .default
  numbered : Numbered w.id w.wait w.world
  place : w.isOver = false →
    w.world.wq.task.map (·.task.id) = some w.id ∨ ∃ rest, w.world.band .default = w.ahead ++ w.id :: rest
  gone : w.isOver = true → w.id ∉ w.world.pending.map Closure.id
  polls : ∀ again ∈ (w.world.pollsOf w.id).dropLast, again = true
  queuedAt : ∀ p ∈ w.world.queuedAtOf w.id, p = w.prio
  released : w.world.released.count w.id = if w.wait && w.isOver then 1 else 0

variable {w : Watched}

theorem mem_of_band {s : World} {p : TaskPrio} {id : Nat} (h : id ∈ s.band p) : id ∈ s.pending.map Closure.id := by
  obtain ⟨t, ht, rfl⟩ := List.mem_map.mp h
  have hmem : t ∈ s.wq.queue.contents := List.mem_flatMap.mpr ⟨p, PrioTaskVariantQueue.mem_all p, ht⟩
  simp only [World.pending, List.map_map]
  exact List.mem_map.mpr ⟨t, List.mem_append_left _ hmem, rfl⟩

theorem mem_of_task {s : World} {id : Nat} (h : s.wq.task.map (·.task.id) = some id) :
    id ∈ s.pending.map Closure.id := by
  obtain ⟨t, ht, rfl⟩ := Option.map_eq_some_iff.mp h
  simp [World.pending, ht]

/-- Two queues, or two places in one, have no number in common. -/
theorem nodup_bands {s : World} (h : (s.pending.map Closure.id).Nodup) :
    (s.band .lowest ++ s.band .default ++ s.band .tracker ++ (s.wq.task.map (·.task.id)).toList).Nodup := by
  have heq : s.pending.map Closure.id =
      s.band .lowest ++ s.band .default ++ s.band .tracker ++ (s.wq.task.map (·.task.id)).toList := by
    cases htask : s.wq.task <;>
      simp [World.pending, World.band, PrioTaskVariantQueue.contents, TaskPrio.all, htask, Function.comp_def]
  rw [← heq]
  exact h

/-- A pop takes what is ahead of the task first, and then the task. -/
theorem Sound.taken (h : w.Sound) {id : Nat} (htaken : w.world.taken .pop = some id) (hover : w.isOver = false) :
    (id = w.id ∧ w.ahead = []) ∨
    (id ≠ w.id ∧ (∃ rest, (w.world.step .pop).band .default = w.ahead.erase id ++ w.id :: rest) ∧
      ((w.world.step .pop).band .lowest).length + (w.ahead.erase id).length + 1 =
        (w.world.band .lowest).length + w.ahead.length) := by
  obtain ⟨htask, p, rest, hp, hbefore, hrest, hothers, -⟩ := World.taken_pop htaken
  have hnodup := nodup_bands h.numbered.nodup
  rcases h.place hover with htask' | ⟨behind, hband⟩
  · simp [htask] at htask'
  · cases p with
    | lowest =>
      have hne : ∀ x ∈ w.ahead ++ w.id :: behind, id ≠ x := by
        intro x hx heq
        subst heq
        simp only [hp, hband, List.cons_append, List.append_assoc, List.nodup_cons] at hnodup
        refine hnodup.1 ?_
        simp only [List.mem_append] at hx ⊢
        grind
      have hahead : w.ahead.erase id = w.ahead := List.erase_of_not_mem fun hmem => hne id (by simp [hmem]) rfl
      refine Or.inr ⟨hne w.id (by simp), ⟨behind, ?_⟩, ?_⟩
      · rw [hothers .default (by decide), hband, hahead]
      · rw [hrest, hp, hahead, List.length_cons]
        omega
    | default =>
      cases hahead : w.ahead with
      | nil =>
        rw [hahead, List.nil_append, hp] at hband
        exact Or.inl ⟨(List.cons.inj hband).1, rfl⟩
      | cons x xs =>
        rw [hahead, List.cons_append, hp] at hband
        obtain ⟨rfl, hbehind⟩ := List.cons.inj hband
        refine Or.inr ⟨?_, ⟨behind, by rw [hrest, hbehind, List.erase_cons_head]⟩, ?_⟩
        · intro heq
          have htwice : (w.world.band .default).Nodup :=
            hnodup.sublist (List.sublist_append_of_sublist_left
              (List.sublist_append_of_sublist_left (List.sublist_append_right _ _)))
          simp [hp, hbehind, heq] at htwice
        · rw [hothers .lowest (by decide), List.erase_cons_head, List.length_cons]
          omega
    | tracker =>
      have hnone := hbefore .default (by decide)
      rw [hband] at hnone
      simp at hnone

/-- A task with a new number is queued. -/
theorem Sound.queued (h : w.Sound) {c : Closure} (hc : c.id = w.world.next) (p : TaskPrio) {l : List (Nat × TaskPrio)}
    (hl : ∀ x ∈ l, x.1 = w.world.next) :
    Sound { w with world := { w.world.push c p with next := w.world.next + 1, queuedAt := w.world.queuedAt ++ l } } := by
  have hpending := World.pending_push w.world ⟨c, p⟩
  have hother : w.id ≠ w.world.next := Nat.ne_of_lt h.numbered.known
  obtain ⟨hnodup, hfresh⟩ := World.push_fresh h.numbered.nodup h.numbered.fresh hc p
  refine ⟨h.prio, ⟨hnodup, hfresh, Nat.lt_succ_of_lt h.numbered.known, ?_⟩, ?_, ?_, h.polls, ?_, h.released⟩
  · intro c' hc' hid
    rcases List.mem_cons.mp (hpending.mem_iff.mp hc') with rfl | hmem
    · exact absurd (hid.symm.trans hc) hother
    · exact h.numbered.kind c' hmem hid
  · intro hover
    rcases h.place hover with htask | ⟨rest, hband⟩
    · exact Or.inl htask
    · have hpush := World.band_push w.world ⟨c, p⟩ .default
      by_cases hp : p = .default
      · refine Or.inr ⟨rest ++ [c.id], ?_⟩
        rw [if_pos hp, hband, List.append_assoc, List.cons_append] at hpush
        exact hpush
      · rw [if_neg hp, hband] at hpush
        exact Or.inr ⟨rest, hpush⟩
  · intro hover hmem
    rcases List.mem_cons.mp ((hpending.map Closure.id).mem_iff.mp hmem) with heq | hmem
    · exact hother (heq.trans hc)
    · exact h.gone hover hmem
  · intro p' hp'
    apply h.queuedAt
    have hnone : l.filter (·.1 = w.id) = [] := by
      apply List.filter_eq_nil_iff.mpr
      intro x hx
      simpa [hl x hx] using Ne.symm hother
    simpa [World.queuedAtOf, List.filter_append, hnone] using hp'

/-- A step that pushes nothing new and leaves the books on the task as they are: what is left
    to see is its place. -/
theorem Sound.elsewhere (h : w.Sound) {e : Event} (hnodup : ((w.world.step e).pending.map Closure.id).Nodup)
    (hsub : ∀ c ∈ (w.world.step e).pending, c ∈ w.world.pending) (hnext : (w.world.step e).next = w.world.next)
    (hpolls : (w.world.step e).pollsOf w.id = w.world.pollsOf w.id)
    (hqueuedAt : (w.world.step e).queuedAtOf w.id = w.world.queuedAtOf w.id)
    (hreleased : (w.world.step e).released.count w.id = w.world.released.count w.id)
    (hplace : w.isOver = false → (w.world.step e).wq.task.map (·.task.id) = some w.id ∨
      ∃ rest, (w.world.step e).band .default = (w.step e).ahead ++ w.id :: rest) : (w.step e).Sound := by
  have hover : (w.step e).isOver = w.isOver := by simp only [isOver, step, hpolls]
  refine ⟨h.prio, h.numbered.keep hnodup hsub hnext, ?_, ?_, ?_, ?_, ?_⟩
  · intro hover'
    rw [hover] at hover'
    exact hplace hover'
  · intro hover' hmem
    rw [hover] at hover'
    obtain ⟨c, hc, hid⟩ := List.mem_map.mp hmem
    exact h.gone hover' (List.mem_map.mpr ⟨c, hsub c hc, hid⟩)
  · show ∀ again ∈ ((w.world.step e).pollsOf w.id).dropLast, again = true
    rw [hpolls]
    exact h.polls
  · show ∀ p ∈ (w.world.step e).queuedAtOf w.id, p = w.prio
    rw [hqueuedAt]
    exact h.queuedAt
  · rw [hover]
    exact hreleased.trans h.released

theorem Sound.pop (h : w.Sound) : (w.step .pop).Sound := by
  cases htaken : w.world.taken .pop with
  | none =>
    have hsame := World.step_of_not_taken htaken
    have hstep : w.step .pop = w := by simp [step, hsame, htaken, World.repushed]
    rw [hstep]
    exact h
  | some id =>
    obtain ⟨htask, p, rest, hp, hbefore, hrest, hothers, hnow⟩ := World.taken_pop htaken
    have hpending : (w.world.step .pop).pending.Perm w.world.pending := by
      simpa [World.step, htask] using World.pending_pop htask
    have hnodup := (hpending.map Closure.id).nodup_iff.mpr h.numbered.nodup
    refine h.elsewhere hnodup (fun c hc => hpending.mem_iff.mp hc) ?_ ?_ ?_ ?_ ?_
    · simp [World.step, htask]
    · simp [World.step, htask, World.pollsOf]
    · simp [World.step, htask, World.queuedAtOf]
    · simp [World.step, htask]
    · intro hover
      rcases h.taken htaken hover with ⟨rfl, -⟩ | ⟨-, ⟨rest', hband⟩, -⟩
      · exact Or.inl hnow
      · refine Or.inr ⟨rest', ?_⟩
        simpa [step, htaken] using hband

/-- A task that is not the watched one is over, or pushed again. -/
theorem Sound.finish_other (h : w.Sound) {t : TaskVariant Closure} {again : Bool} (htask : w.world.wq.task = some t)
    (hne : t.task.id ≠ w.id) : (w.step (.finish again)).Sound := by
  have hplace : w.isOver = false → ∃ rest, w.world.band .default = w.ahead ++ w.id :: rest := by
    intro hover
    rcases h.place hover with htask' | hband
    · simp [htask] at htask'
      exact absurd htask' hne
    · exact hband
  cases hrepushed : w.world.repushed (.finish again) with
  | none =>
    obtain ⟨hpending, hnext, hband, hqueuedAt, -, hrest⟩ := World.ended htask hrepushed
    have hahead : (w.step (.finish again)).ahead = w.ahead := by simp [step, World.taken, hrepushed]
    have hnodup := (List.nodup_cons.mp ((hpending.map Closure.id).nodup_iff.mp h.numbered.nodup)).2
    have hsub : ∀ c ∈ (w.world.step (.finish again)).pending, c ∈ w.world.pending :=
      fun c hc => hpending.mem_iff.mpr (List.mem_cons_of_mem _ hc)
    refine h.elsewhere hnodup hsub hnext ?_ ?_ ?_ ?_
    · cases hclosure : t.task with
      | task id => simp only [hclosure] at hrest; simp [World.pollsOf, hrest.1]
      | poll id wait =>
        simp only [hclosure, Closure.id] at hrest hne
        simp [World.pollsOf, hrest.1, hne]
    · simp only [World.queuedAtOf, hqueuedAt]
    · cases hclosure : t.task with
      | task id => simp only [hclosure] at hrest; simp [hrest.2]
      | poll id wait =>
        simp only [hclosure, Closure.id] at hrest hne
        cases wait <;> simp [hrest.2, List.count_append, hne]
    · intro hover
      rw [hahead, hband]
      exact Or.inr (hplace hover)
  | some id =>
    obtain ⟨wait, hclosure, hpending, hnext, -, hband, -, hpolls, hqueuedAt, hreleased⟩ := World.pushed_again hrepushed
    have hid : id ≠ w.id := by
      simp only [htask, Option.map_some, Option.some.injEq] at hclosure
      simpa [hclosure, Closure.id] using hne
    have hahead : (w.step (.finish again)).ahead = w.ahead := by simp [step, World.taken, hrepushed, hid]
    have hnodup := (hpending.map Closure.id).nodup_iff.mpr h.numbered.nodup
    refine h.elsewhere hnodup (fun c hc => hpending.mem_iff.mp hc) hnext ?_ ?_ ?_ ?_
    · simp [World.pollsOf, hpolls, hid]
    · simp [World.queuedAtOf, hqueuedAt, hid]
    · rw [hreleased]
    · intro hover
      obtain ⟨rest, hplace⟩ := hplace hover
      refine Or.inr ⟨rest ++ [id], ?_⟩
      rw [hahead, hband, hplace, List.append_assoc, List.cons_append]

/-- The watched task returns: it is over, or pushed again behind all that is queued. -/
theorem Sound.finish_own (h : w.Sound) {t : TaskVariant Closure} {again : Bool} (htask : w.world.wq.task = some t)
    (hid : t.task.id = w.id) : (w.step (.finish again)).Sound := by
  have hmem : t.task ∈ w.world.pending := by simp [World.pending, htask]
  have hclosure : t.task = .poll w.id w.wait := h.numbered.kind t.task hmem hid
  have hnot : w.isOver = false := by
    cases hover : w.isOver with
    | false => rfl
    | true => exact absurd (List.mem_map.mpr ⟨t.task, hmem, hid⟩) (h.gone hover)
  have hall : ∀ b ∈ w.world.pollsOf w.id, b = true := by
    intro b hb
    cases b with
    | true => rfl
    | false => simp [isOver, hb] at hnot
  have hreleased : w.world.released.count w.id = 0 := by simpa [hnot] using h.released
  have hpolls := World.pollsOf_finish htask hclosure again
  have hkept : ∀ b ∈ ((w.world.step (.finish again)).pollsOf w.id).dropLast, b = true := by
    rw [hpolls, List.dropLast_concat]
    exact hall
  cases again with
  | false =>
    obtain ⟨hpending, hnext, -, hqueuedAt, -, hrest⟩ := @World.ended w.world t false htask rfl
    simp only [hclosure] at hrest
    have hover : (w.step (.finish false)).isOver = true := by simp [isOver, step, hpolls]
    have hnodup := List.nodup_cons.mp ((hpending.map Closure.id).nodup_iff.mp h.numbered.nodup)
    have hnumbered := h.numbered.keep hnodup.2 (fun c hc => hpending.mem_iff.mpr (List.mem_cons_of_mem _ hc)) hnext
    refine ⟨h.prio, hnumbered, ?_, ?_, hkept, ?_, ?_⟩
    · intro hover'
      simp [hover] at hover'
    · intro _
      show w.id ∉ (w.world.step (.finish false)).pending.map Closure.id
      rw [← hid]
      exact hnodup.1
    · intro p hp
      apply h.queuedAt
      have hp' : p ∈ (w.world.step (.finish false)).queuedAtOf w.id := hp
      simpa only [World.queuedAtOf, hqueuedAt] using hp'
    · rw [hover]
      show (w.world.step (.finish false)).released.count w.id = if w.wait && true then 1 else 0
      rw [hrest.2, List.count_append, hreleased]
      cases w.wait <;> simp
  | true =>
    have hrepushed : w.world.repushed (.finish true) = some w.id := by simp [World.repushed, htask, hclosure]
    obtain ⟨-, -, hpending, hnext, -, hband, -, -, hqueuedAt, hreleased'⟩ := World.pushed_again hrepushed
    have hahead : (w.step (.finish true)).ahead = w.world.band .default := by
      simp [step, World.taken, hrepushed, h.prio]
    have hover : (w.step (.finish true)).isOver = false := by
      simpa [isOver, step, hpolls] using hnot
    have hnodup := (hpending.map Closure.id).nodup_iff.mpr h.numbered.nodup
    have hnumbered := h.numbered.keep hnodup (fun c hc => hpending.mem_iff.mp hc) hnext
    refine ⟨h.prio, hnumbered, ?_, ?_, hkept, ?_, ?_⟩
    · intro _
      refine Or.inr ⟨[], ?_⟩
      rw [hahead]
      exact hband
    · intro hover'
      simp [hover] at hover'
    · intro p hp
      have hp' : p ∈ (w.world.step (.finish true)).queuedAtOf w.id := hp
      simp only [World.queuedAtOf, hqueuedAt, List.filter_append, List.map_append, List.mem_append] at hp'
      rcases hp' with hp' | hp'
      · exact h.queuedAt p hp'
      · simp at hp'
        rw [hp']
        exact h.prio.symm
    · rw [hover]
      show (w.world.step (.finish true)).released.count w.id = _
      rw [hreleased', hreleased]
      simp

theorem Sound.finish (h : w.Sound) (again : Bool) : (w.step (.finish again)).Sound := by
  cases htask : w.world.wq.task with
  | none =>
    obtain ⟨hsame, hrepushed⟩ := World.finish_of_none htask again
    have hstep : w.step (.finish again) = w := by simp [step, hsame, hrepushed, World.taken]
    rw [hstep]
    exact h
  | some t =>
    by_cases hid : t.task.id = w.id
    · exact h.finish_own htask hid
    · exact h.finish_other htask hid

/-! ## Left to itself, the thread comes to invoke the task -/

theorem pollsOf_step (s : World) (e : Event) (id : Nat) : ∃ l, (s.step e).pollsOf id = s.pollsOf id ++ l := by
  cases e with
  | push aPrio => exact ⟨[], (List.append_nil _).symm⟩
  | pushContinuous aPrio => exact ⟨[], (List.append_nil _).symm⟩
  | pushContinuousWait aPrio => exact ⟨[], (List.append_nil _).symm⟩
  | pop =>
    refine ⟨[], ?_⟩
    simp only [World.step]
    split <;> simp [World.pollsOf]
  | finish again =>
    cases htask : s.wq.task with
    | none => exact ⟨[], by simp [(World.finish_of_none htask again).1]⟩
    | some t =>
      cases hrepushed : s.repushed (.finish again) with
      | none =>
        obtain ⟨-, -, -, -, -, hrest⟩ := World.ended htask hrepushed
        cases hclosure : t.task with
        | task i =>
          simp only [hclosure] at hrest
          exact ⟨[], by simp [World.pollsOf, hrest.1]⟩
        | poll i wait =>
          simp only [hclosure] at hrest
          exact ⟨_, by rw [World.pollsOf, hrest.1, List.filter_append, List.map_append]; rfl⟩
      | some i =>
        obtain ⟨-, -, -, -, -, -, -, hpolls, -, -⟩ := World.pushed_again hrepushed
        exact ⟨_, by rw [World.pollsOf, hpolls, List.filter_append, List.map_append]; rfl⟩

theorem pollsOf_run (w : Watched) (es : List Event) :
    (run step w es).id = w.id ∧ ∃ l, (run step w es).world.pollsOf w.id = w.world.pollsOf w.id ++ l := by
  induction es generalizing w with
  | nil => exact ⟨rfl, [], (List.append_nil _).symm⟩
  | cons e es ih =>
    obtain ⟨l, hl⟩ := pollsOf_step w.world e w.id
    obtain ⟨hid, l', hl'⟩ := ih (w.step e)
    refine ⟨hid, l ++ l', ?_⟩
    rw [← List.append_assoc, ← hl]
    exact hl'

theorem invocations_le (w : Watched) (es : List Event) : w.invocations ≤ (run step w es).invocations := by
  obtain ⟨hid, l, hl⟩ := pollsOf_run w es
  rw [invocations, invocations, hid, hl, List.length_append]
  omega

/-- The task has returned false in between. -/
theorem invocations_lt {es : List Event} (hover : w.isOver = false) (hover' : (run step w es).isOver = true) :
    w.invocations < (run step w es).invocations := by
  obtain ⟨hid, l, hl⟩ := pollsOf_run w es
  rw [isOver, hid, hl] at hover'
  cases l with
  | nil =>
    rw [List.append_nil] at hover'
    exact absurd (hover.symm.trans hover') (by decide)
  | cons again l =>
    rw [invocations, invocations, hid, hl, List.length_append, List.length_cons]
    omega

theorem invocations_step (w : Watched) (e : Event) :
    (w.step e).invocations = ((w.world.step e).pollsOf w.id).length := rfl

theorem Sound.returns (h : w.Sound) (htask : w.world.wq.task.map (·.task.id) = some w.id) (again : Bool) :
    w.invocations < (w.step (.finish again)).invocations := by
  obtain ⟨t, ht, hid⟩ := Option.map_eq_some_iff.mp htask
  have hclosure := h.numbered.kind t.task (by simp [World.pending, ht]) hid
  rw [invocations_step, World.pollsOf_finish ht hclosure, List.length_append]
  exact Nat.lt_succ_self _

/-- How many tasks are taken before the watched one. -/
def rank (w : Watched) : Nat := (w.world.band .lowest).length + w.ahead.length

/-- A turn invokes the task, or brings it nearer. -/
theorem Sound.turn (h : w.Sound) (hover : w.isOver = false) (htask : w.world.wq.task = none) (again : Bool) :
    w.invocations < ((w.step .pop).step (.finish again)).invocations ∨
    (((w.step .pop).step (.finish again)).rank + 1 = w.rank ∧
      ((w.step .pop).step (.finish again)).world.wq.task = none) := by
  have hpop := h.pop
  cases htaken : w.world.taken .pop with
  | none =>
    have hnone : w.world.band .default = [] := by
      have hempty : w.world.wq.queue.pop = none := by simpa [World.taken, htask] using htaken
      simp [World.band, PrioTaskVariantQueue.pop_none hempty]
    rcases h.place hover with htask' | ⟨rest, hband⟩
    · simp [htask] at htask'
    · simp [hnone] at hband
  | some id =>
    obtain ⟨-, -, -, -, -, -, -, hnow⟩ := World.taken_pop htaken
    have hinvocations : (w.step .pop).invocations = w.invocations := by
      have hpolls : (w.world.step .pop).pollsOf w.id = w.world.pollsOf w.id := by
        simp [World.step, htask, World.pollsOf]
      rw [invocations_step, hpolls, invocations]
    rcases h.taken htaken hover with ⟨rfl, -⟩ | ⟨hne, -, hrank⟩
    · left
      rw [← hinvocations]
      exact hpop.returns hnow again
    · right
      obtain ⟨t, ht, hid⟩ := Option.map_eq_some_iff.mp hnow
      have hahead : (w.step .pop).ahead = w.ahead.erase id := by simp [step, htaken]
      have ht' : (w.step .pop).world.wq.task = some t := ht
      refine ⟨?_, World.finish_task _ again⟩
      cases hrepushed : (w.step .pop).world.repushed (.finish again) with
      | none =>
        obtain ⟨-, -, hband, -, -, -⟩ := World.ended ht' hrepushed
        have hsame : ((w.step .pop).step (.finish again)).ahead = (w.step .pop).ahead := by
          rw [step]
          simp [World.taken, hrepushed]
        show (((w.step .pop).world.step (.finish again)).band .lowest).length + _ + 1 = _
        rw [hsame, hahead, hband]
        exact hrank
      | some i =>
        obtain ⟨wait, hclosure, -, -, -, -, hband, -, -, -⟩ := World.pushed_again hrepushed
        have hi : i ≠ w.id := by
          simp only [ht', Option.map_some, Option.some.injEq] at hclosure
          simp only [hclosure, Closure.id] at hid
          rw [hid]
          exact hne
        have hsame : ((w.step .pop).step (.finish again)).ahead = (w.step .pop).ahead := by
          have hi' : some i ≠ some (w.step .pop).id := fun heq => hi (Option.some_inj.mp heq)
          rw [step]
          simp only [World.taken, hrepushed, if_neg hi']
        show (((w.step .pop).world.step (.finish again)).band .lowest).length + _ + 1 = _
        rw [hsame, hahead, hband .lowest (by decide)]
        exact hrank

/-- A number of turns that exceeds the rank reaches the task. -/
theorem Sound.reached (h : w.Sound) (hover : w.isOver = false) (htask : w.world.wq.task = none) (rs : List Bool)
    (hrs : w.rank < rs.length) : w.invocations < (run step w (turns rs)).invocations := by
  induction rs generalizing w with
  | nil => simp at hrs
  | cons again rs ih =>
    have hturns : run step w (turns (again :: rs)) = run step ((w.step .pop).step (.finish again)) (turns rs) := rfl
    rw [hturns]
    rcases h.turn hover htask again with hmore | ⟨hrank, hnone⟩
    · exact Nat.lt_of_lt_of_le hmore (invocations_le _ _)
    · have hle : w.invocations ≤ ((w.step .pop).step (.finish again)).invocations :=
        invocations_le w [.pop, .finish again]
      cases hover' : ((w.step .pop).step (.finish again)).isOver with
      | false =>
        have hrec := ih (h.pop.finish again) hover' hnone (by simp only [List.length_cons] at hrs; omega)
        exact Nat.lt_of_le_of_lt hle hrec
      | true =>
        have hlt : w.invocations < (run step w [.pop, .finish again]).invocations := invocations_lt hover hover'
        exact Nat.lt_of_lt_of_le hlt (invocations_le _ _)

theorem Sound.comes (h : w.Sound) (hover : w.isOver = false) :
    ∃ n, ∀ rs : List Bool, n ≤ rs.length → w.invocations < (run step w (turns rs)).invocations := by
  cases htask : w.world.wq.task with
  | none => exact ⟨w.rank + 1, fun rs hrs => h.reached hover htask rs hrs⟩
  | some t =>
    -- the thread is with a task, whose end the first turn is
    have hpop : w.step .pop = w := by simp [step, World.step, World.taken, World.repushed, htask]
    refine ⟨(w.step (.finish true)).rank + (w.step (.finish false)).rank + 2, ?_⟩
    intro rs hrs
    cases rs with
    | nil => simp at hrs
    | cons again rs =>
      have hturns : run step w (turns (again :: rs)) = run step (w.step (.finish again)) (turns rs) := by
        show run step ((w.step .pop).step (.finish again)) (turns rs) = _
        rw [hpop]
      have hle : w.invocations ≤ (w.step (.finish again)).invocations := invocations_le w [.finish again]
      rw [hturns]
      cases hover' : (w.step (.finish again)).isOver with
      | true =>
        have hlt : w.invocations < (run step w [.finish again]).invocations := invocations_lt hover hover'
        exact Nat.lt_of_lt_of_le hlt (invocations_le _ _)
      | false =>
        have hnone : (w.step (.finish again)).world.wq.task = none := World.finish_task _ again
        have hrank : (w.step (.finish again)).rank < rs.length := by
          simp only [List.length_cons] at hrs
          cases again <;> omega
        exact Nat.lt_of_le_of_lt hle ((h.finish again).reached hover' hnone rs hrank)

theorem Sound.polled (h : w.Sound) : w.Polled where
  pending := by
    cases hover : w.isOver with
    | true => simpa using List.count_eq_zero.mpr (h.gone hover)
    | false =>
      have hmem : w.id ∈ w.world.pending.map Closure.id := by
        rcases h.place hover with htask | ⟨rest, hband⟩
        · exact mem_of_task htask
        · exact mem_of_band (p := .default) (by simp [hband])
      simpa using List.count_eq_one_of_mem h.numbered.nodup hmem
  polls := h.polls
  comes := h.comes
  queuedAt := h.queuedAt
  released := h.released

/-! ## Runs -/

/-- Nothing is pending, or has been, under a number not given yet. -/
structure Clean (s : World) : Prop where
  nodup : (s.pending.map Closure.id).Nodup
  fresh : ∀ c ∈ s.pending, c.id < s.next
  polls : ∀ x ∈ s.polls, x.1 < s.next
  queuedAt : ∀ x ∈ s.queuedAt, x.1 < s.next
  released : ∀ id ∈ s.released, id < s.next

theorem Clean.queued {s : World} (h : Clean s) {c : Closure} (hc : c.id = s.next) (p : TaskPrio)
    {l : List (Nat × TaskPrio)} (hl : ∀ x ∈ l, x.1 = s.next) :
    Clean { s.push c p with next := s.next + 1, queuedAt := s.queuedAt ++ l } := by
  obtain ⟨hnodup, hfresh⟩ := World.push_fresh h.nodup h.fresh hc p
  refine ⟨hnodup, hfresh, ?_, ?_, ?_⟩
  · intro x hx
    exact Nat.lt_succ_of_lt (h.polls x hx)
  · intro x hx
    rcases List.mem_append.mp hx with hx | hx
    · exact Nat.lt_succ_of_lt (h.queuedAt x hx)
    · exact Nat.lt_succ_of_le (Nat.le_of_eq (hl x hx))
  · intro id hid
    exact Nat.lt_succ_of_lt (h.released id hid)

theorem Clean.finish {s : World} (h : Clean s) (again : Bool) : Clean (s.step (.finish again)) := by
  cases htask : s.wq.task with
  | none =>
    rw [(World.finish_of_none htask again).1]
    exact h
  | some t =>
    have hid : t.task.id < s.next := h.fresh t.task (by simp [World.pending, htask])
    cases hrepushed : s.repushed (.finish again) with
    | none =>
      obtain ⟨hpending, hnext, -, hqueuedAt, -, hrest⟩ := World.ended htask hrepushed
      have hids := hpending.map Closure.id
      refine ⟨(List.nodup_cons.mp (hids.nodup_iff.mp h.nodup)).2, ?_, ?_, ?_, ?_⟩
      · intro c hc
        rw [hnext]
        exact h.fresh c (hpending.mem_iff.mpr (List.mem_cons_of_mem _ hc))
      · rw [hnext]
        cases hclosure : t.task with
        | task i =>
          simp only [hclosure] at hrest
          rw [hrest.1]
          exact h.polls
        | poll i wait =>
          simp only [hclosure, Closure.id] at hrest hid
          intro x hx
          simp only [hrest.1, List.mem_append, List.mem_singleton] at hx
          rcases hx with hx | rfl
          · exact h.polls x hx
          · exact hid
      · rw [hnext, hqueuedAt]
        exact h.queuedAt
      · rw [hnext]
        cases hclosure : t.task with
        | task i =>
          simp only [hclosure] at hrest
          rw [hrest.2]
          exact h.released
        | poll i wait =>
          simp only [hclosure, Closure.id] at hrest hid
          intro x hx
          rw [hrest.2] at hx
          rcases List.mem_append.mp hx with hx | hx
          · exact h.released x hx
          · cases wait with
            | true =>
              obtain rfl := List.mem_singleton.mp hx
              exact hid
            | false => cases hx
    | some i =>
      obtain ⟨wait, hclosure, hpending, hnext, -, -, -, hpolls, hqueuedAt, hreleased⟩ := World.pushed_again hrepushed
      have hi : i < s.next := by
        simp only [htask, Option.map_some, Option.some.injEq] at hclosure
        simpa [hclosure, Closure.id] using hid
      refine ⟨(hpending.map Closure.id).nodup_iff.mpr h.nodup, ?_, ?_, ?_, ?_⟩
      · intro c hc
        rw [hnext]
        exact h.fresh c (hpending.mem_iff.mp hc)
      · intro x hx
        rw [hpolls] at hx
        rw [hnext]
        rcases List.mem_append.mp hx with hx | hx
        · exact h.polls x hx
        · obtain rfl := List.mem_singleton.mp hx
          exact hi
      · intro x hx
        rw [hqueuedAt] at hx
        rw [hnext]
        rcases List.mem_append.mp hx with hx | hx
        · exact h.queuedAt x hx
        · obtain rfl := List.mem_singleton.mp hx
          exact hi
      · rw [hnext, hreleased]
        exact h.released

theorem Clean.step {s : World} (h : Clean s) (e : Event) : Clean (s.step e) := by
  cases e with
  | push aPrio =>
    have hqueued := h.queued (c := .task s.next) rfl aPrio (l := []) (by simp)
    rw [List.append_nil] at hqueued
    exact hqueued
  | pushContinuous aPrio => exact h.queued (c := .poll s.next false) rfl .default (l := [(s.next, .default)]) (by simp)
  | pushContinuousWait aPrio => exact h.queued (c := .poll s.next true) rfl .default (l := [(s.next, .default)]) (by simp)
  | pop =>
    cases htask : s.wq.task with
    | some t => simpa [World.step, htask] using h
    | none =>
      have hpending := World.pending_pop htask
      have hstep : s.step .pop = { s with wq := s.wq.pop } := by simp [World.step, htask]
      rw [hstep]
      refine ⟨(hpending.map Closure.id).nodup_iff.mpr h.nodup, ?_, h.polls, h.queuedAt, h.released⟩
      intro c hc
      exact h.fresh c (hpending.mem_iff.mp hc)
  | finish again => exact h.finish again

theorem Clean.run (es : List Event) : Clean (Lib.run World.step {} es) := by
  have hinit : Clean {} := ⟨List.nodup_nil, by simp [World.pending, PrioTaskVariantQueue.contents, TaskPrio.all],
    by simp, by simp, by simp⟩
  exact (always_of_step (fun s e h => h.step e) hinit es).last

/-- A continuous task is queued behind what is queued at the default priority. -/
theorem Clean.start {s : World} (h : Clean s) (wait : Bool) : (start s .default wait).Sound := by
  have hstep : (Watched.start s .default wait).world =
      { s.push (.poll s.next wait) .default with next := s.next + 1, queuedAt := s.queuedAt ++ [(s.next, .default)] } := by
    cases wait <;> rfl
  have hclean := h.queued (c := .poll s.next wait) rfl .default (l := [(s.next, .default)]) (by simp)
  have hpending := World.pending_push s ⟨.poll s.next wait, .default⟩
  have hpolls : (Watched.start s .default wait).world.pollsOf s.next = [] := by
    rw [hstep]
    have hnone : s.polls.filter (·.1 = s.next) = [] := by
      apply List.filter_eq_nil_iff.mpr
      intro x hx
      simpa using Nat.ne_of_lt (h.polls x hx)
    exact congrArg (List.map (·.2)) hnone
  have hqueuedAt : (Watched.start s .default wait).world.queuedAtOf s.next = [.default] := by
    rw [hstep]
    have hnone : s.queuedAt.filter (·.1 = s.next) = [] := by
      apply List.filter_eq_nil_iff.mpr
      intro x hx
      simpa using Nat.ne_of_lt (h.queuedAt x hx)
    simp [World.queuedAtOf, List.filter_append, hnone]
  have hover : (Watched.start s .default wait).isOver = false := by
    show decide (false ∈ (Watched.start s .default wait).world.pollsOf s.next) = false
    rw [hpolls]
    rfl
  rw [← hstep] at hclean
  refine ⟨rfl, ⟨hclean.nodup, hclean.fresh, ?_, ?_⟩, ?_, ?_, ?_, ?_, ?_⟩
  · rw [hstep]
    exact Nat.lt_succ_self _
  · intro c hc hid
    rw [hstep] at hc
    rcases List.mem_cons.mp (hpending.mem_iff.mp hc) with rfl | hmem
    · rfl
    · exact absurd hid (Nat.ne_of_lt (h.fresh c hmem))
  · intro _
    refine Or.inr ⟨[], ?_⟩
    rw [hstep]
    exact World.band_push s ⟨.poll s.next wait, .default⟩ .default
  · intro hover'
    rw [hover] at hover'
    cases hover'
  · show ∀ b ∈ ((Watched.start s .default wait).world.pollsOf s.next).dropLast, b = true
    rw [hpolls]
    simp
  · show ∀ p ∈ (Watched.start s .default wait).world.queuedAtOf s.next, p = .default
    rw [hqueuedAt]
    simp
  · have hcount : s.released.count s.next = 0 := by
      apply List.count_eq_zero.mpr
      intro hmem
      exact Nat.lt_irrefl _ (h.released _ hmem)
    rw [hover, hstep]
    simpa [World.push, Watched.start] using hcount

theorem Sound.fair (h : w.Sound) (e : Event) : w.Fair e := by
  intro htaken
  cases e with
  | pop =>
    cases hover : w.isOver with
    | true =>
      obtain ⟨-, p, rest, hp, -⟩ := World.taken_pop htaken
      exact absurd (mem_of_band (by rw [hp]; exact List.mem_cons_self)) (h.gone hover)
    | false =>
      rcases h.taken htaken hover with ⟨-, hahead⟩ | ⟨hne, -⟩
      · exact hahead
      · exact absurd rfl hne
  | push aPrio => cases htaken
  | pushContinuous aPrio => cases htaken
  | pushContinuousWait aPrio => cases htaken
  | finish again => cases htaken

theorem Sound.step (h : w.Sound) (e : Event) : (w.step e).Sound := by
  cases e with
  | push aPrio =>
    have hqueued := h.queued (c := .task w.world.next) rfl aPrio (l := []) (by simp)
    rw [List.append_nil] at hqueued
    exact hqueued
  | pushContinuous aPrio =>
    exact h.queued (c := .poll w.world.next false) rfl .default (l := [(w.world.next, .default)]) (by simp)
  | pushContinuousWait aPrio =>
    exact h.queued (c := .poll w.world.next true) rfl .default (l := [(w.world.next, .default)]) (by simp)
  | pop => exact h.pop
  | finish again => exact h.finish again

/-- **Continuous tasks.** A continuous task is polled as it is asked to be, whatever the queue
    holds and is given, exactly when it is pushed with the default priority. -/
theorem continuous_iff (before after : List Event) (prio : TaskPrio) (wait : Bool) :
    let w := start (run World.step {} before) prio wait
    Always step Polled w after ∧ Along step Fair w after ↔ prio = .default := by
  constructor
  · intro h
    apply Eq.symm
    apply h.1.head.queuedAt
    cases wait <;> simp [start, World.step, World.pushContinuous, World.queuedAtOf]
  · intro hprio
    subst hprio
    have hsound := always_of_step (I := Sound) (fun _ e h => h.step e) ((Clean.run before).start wait) after
    exact ⟨hsound.mono fun w h => h.polled, hsound.along fun w e h => h.fair e⟩

/-- A continuous task that is given the tracker's priority is queued at the default one. -/
theorem a_priority_is_not_passed_on :
    let w := start {} .tracker false
    ¬ (Always step Polled w [.pop, .finish true] ∧ Along step Fair w [.pop, .finish true]) := by
  intro w h
  have hqueued := h.1.head.queuedAt .default (by decide)
  cases hqueued

end Watched

end Esp32Cam.Ut.Thr.Wq
