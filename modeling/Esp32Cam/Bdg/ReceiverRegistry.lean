/-
  Esp32Cam.Bdg.ReceiverRegistry — receivers register themselves through the work queue.

  The constructor pushes a task that adds the receiver to the registry, and goes on. The
  destructor pushes one that removes it and waits for it, so the address is not used again
  before the task has run. Both go to one FIFO of the queue, among tasks of others.

  Whether an address is registered can be told from the tasks that are still to run for it
  (`Stage`): the receiver there waits for its `add`, or is registered and has none. So in
  every interleaving a `remove` runs for a receiver that is registered (`registry_sound`).
-/

import Esp32Cam.Bdg.EndpointVariant
import Esp32Cam.Lib.PartialRun
import Esp32Cam.Ut.InstanceRegistry
import Esp32Cam.Ut.WorkQueue

namespace Esp32Cam.Bdg.ReceiverRegistry

open Esp32Cam.Lib Esp32Cam.Ut.Comm Esp32Cam.Ut.Thr.Wq

/-- A receiver: its address, and how many were constructed before it. -/
structure Instance where
  this : Nat
  id : Nat
  deriving DecidableEq, Repr

inductive Job where
  | add (aInstance : Instance)
  | remove (aInstance : Instance)
  /-- A task of somebody else. -/
  | other
  deriving DecidableEq, Repr

structure Object where
  id : Nat
  /-- The destructor has been called, and waits. -/
  leaving : Bool := false
  deriving DecidableEq, Repr

structure World where
  wq : WorkQueue Job := {}
  /-- The registry. -/
  instances : List Nat := []
  /-- The field, by the address of the receiver. -/
  endpointVariant : Nat → EndpointVariant
  objects : Nat → Option Object := fun _ => none
  constructed : Nat := 0
  /-- The tasks for the registry that have been run. -/
  ran : List Job := []

inductive Event where
  | construct (this : Nat) (aIdentity : EndpointVariant)
  | destruct (this : Nat)
  | push (aPrio : TaskPrio)
  | pop
  /-- The thread invokes the task it has taken. -/
  | invoke (again : Bool)
  deriving Repr

namespace World

/-- `Receiver::Receiver`, at an address where nothing lives. -/
def construct (w : World) (this : Nat) (aIdentity : EndpointVariant) : Option World :=
  match w.objects this with
  | some _ => none
  | none =>
    some { w with
      wq := w.wq.push ⟨.add ⟨this, w.constructed⟩, .default⟩
      endpointVariant := Function.update w.endpointVariant this aIdentity
      objects := Function.update w.objects this (some { id := w.constructed })
      constructed := w.constructed + 1 }

/-- `Receiver::~Receiver`, up to where it waits. -/
def destruct (w : World) (this : Nat) : Option World :=
  match w.objects this with
  | none => none
  | some o =>
    if o.leaving then none
    else some { w with
      wq := w.wq.push ⟨.remove ⟨this, o.id⟩, .default⟩
      objects := Function.update w.objects this (some { o with leaving := true }) }

def invoke (w : World) (again : Bool) : Option World :=
  match w.wq.task with
  | none => none
  | some aTask =>
    match aTask.task with
    | .add i =>
      some { w with
        wq := w.wq.finish false
        instances := OrderedInstanceRegistry.add w.endpointVariant w.instances i.this
        ran := w.ran ++ [.add i] }
    | .remove i =>
      -- the destructor returns
      (OrderedInstanceRegistry.remove w.instances i.this).map fun instances =>
        { w with
          wq := w.wq.finish false
          instances
          objects := Function.update w.objects i.this none
          ran := w.ran ++ [.remove i] }
    | .other => some { w with wq := w.wq.finish again }

/-- `none`: the event cannot happen, or the end of the registry is erased. -/
def step (w : World) : Event → Option World
  | .construct this aIdentity => w.construct this aIdentity
  | .destruct this => w.destruct this
  | .push aPrio => some { w with wq := w.wq.push ⟨.other, aPrio⟩ }
  | .pop => if w.wq.task = none then some { w with wq := w.wq.pop } else none
  | .invoke again => w.invoke again

/-- The receiver's `add` has run, and its `remove` has not. -/
def Registered (w : World) (i : Instance) : Prop := .add i ∈ w.ran ∧ .remove i ∉ w.ran

/-- A `remove` finds its receiver, and the registry has the registered receivers in it, in order. -/
structure Sound (w : World) : Prop where
  found : ∀ i aPrio, w.wq.task = some ⟨.remove i, aPrio⟩ → i.this ∈ w.instances
  sorted : w.instances.Pairwise fun a b => w.endpointVariant a ≤ w.endpointVariant b
  nodup : w.instances.Nodup
  exact : ∃ receivers : List Instance, receivers.Nodup ∧ (∀ i, i ∈ receivers ↔ w.Registered i) ∧
    w.instances = receivers.map Instance.this

end World

/-! ## What is still to run -/

def Job.about (this : Nat) : Job → Bool
  | .add i => i.this == this
  | .remove i => i.this == this
  | .other => false

theorem Job.ne_of_about {job job' : Job} {this : Nat} (h : job.about this = true) (h' : job'.about this = false) :
    job ≠ job' := by
  intro heq
  rw [heq, h'] at h
  cases h

/-- What the thread is to run for an address, in this order. -/
def standing (wq : WorkQueue Job) (this : Nat) : List Job :=
  ((wq.task.toList ++ wq.queue.queues .default).map TaskVariant.task).filter (Job.about this)

/-- The tasks for the registry have the default priority. -/
def Elsewhere (wq : WorkQueue Job) : Prop :=
  ∀ aPrio, aPrio ≠ .default → ∀ t ∈ wq.queue.queues aPrio, t.task = .other

variable {wq : WorkQueue Job} {this : Nat} {job : Job} {t : TaskVariant Job}

theorem standing_push (wq : WorkQueue Job) (job : Job) (this : Nat) :
    standing (wq.push ⟨job, .default⟩) this = standing wq this ++ [job].filter (Job.about this) := by
  simp [standing, WorkQueue.push, PrioTaskVariantQueue.push, List.filter_append]

theorem standing_push_of_not_about (hnot : job.about this = false) :
    standing (wq.push ⟨job, .default⟩) this = standing wq this := by
  rw [standing_push, List.filter_eq_nil_iff.mpr (by simp [hnot]), List.append_nil]

theorem standing_push_other (wq : WorkQueue Job) (aPrio : TaskPrio) (this : Nat) :
    standing (wq.push ⟨.other, aPrio⟩) this = standing wq this := by
  cases aPrio with
  | lowest => simp [standing, WorkQueue.push, PrioTaskVariantQueue.push]
  | default => simp [standing_push, Job.about]
  | tracker => simp [standing, WorkQueue.push, PrioTaskVariantQueue.push]

theorem Elsewhere.push (h : Elsewhere wq) (ht : t.priority = .default ∨ t.task = .other) : Elsewhere (wq.push t) := by
  intro aPrio hne u hu
  simp only [WorkQueue.push, PrioTaskVariantQueue.push] at hu
  by_cases hp : aPrio = t.priority
  · rw [hp, Function.update_self] at hu
    rcases List.mem_append.mp hu with hu | hu
    · exact h t.priority (hp ▸ hne) u hu
    · rw [List.mem_singleton.mp hu]
      exact ht.resolve_left (hp ▸ hne)
  · rw [Function.update_of_ne hp] at hu
    exact h aPrio hne u hu

theorem standing_pop (h : Elsewhere wq) (htask : wq.task = none) (this : Nat) :
    standing wq.pop this = standing wq this := by
  unfold WorkQueue.pop standing
  cases hpop : wq.queue.pop with
  | none => rw [htask]
  | some taken =>
    obtain ⟨t, q'⟩ := taken
    obtain ⟨aPrio, ts, hqueue, rfl, -⟩ := PrioTaskVariantQueue.pop_cases hpop
    by_cases hdefault : aPrio = .default
    · subst hdefault
      simp [htask, hqueue]
    · have hother : t.task = .other := h aPrio hdefault t (by simp [hqueue])
      simp [htask, Function.update_of_ne (Ne.symm hdefault), hother, Job.about]

theorem Elsewhere.pop (h : Elsewhere wq) : Elsewhere wq.pop := by
  unfold WorkQueue.pop
  cases hpop : wq.queue.pop with
  | none => exact h
  | some taken =>
    obtain ⟨t, q'⟩ := taken
    obtain ⟨aPrio', ts, hqueue, rfl, -⟩ := PrioTaskVariantQueue.pop_cases hpop
    intro aPrio hne u hu
    change u ∈ Function.update wq.queue.queues aPrio' ts aPrio at hu
    by_cases hp : aPrio = aPrio'
    · subst hp
      rw [Function.update_self] at hu
      exact h aPrio hne u (by rw [hqueue]; exact List.mem_cons_of_mem t hu)
    · rw [Function.update_of_ne hp] at hu
      exact h aPrio hne u hu

theorem finish_false (htask : wq.task = some t) : wq.finish false = { wq with task := none } := by
  simp [WorkQueue.finish, htask]

/-- A task that is to be invoked again goes to the end of its queue. -/
theorem finish_true (htask : wq.task = some t) : wq.finish true = (wq.finish false).push t := by
  simp [WorkQueue.finish, htask, WorkQueue.push]

theorem standing_finish (htask : wq.task = some t) (this : Nat) :
    standing wq this = [t.task].filter (Job.about this) ++ standing (wq.finish false) this := by
  rw [finish_false htask, standing, htask]
  exact List.filter_append [t.task] _

theorem standing_finish_of_not_about (htask : wq.task = some t) (hnot : t.task.about this = false) :
    standing (wq.finish false) this = standing wq this := by
  have hnone : [t.task].filter (Job.about this) = [] := List.filter_eq_nil_iff.mpr (by simp [hnot])
  rw [standing_finish htask this, hnone, List.nil_append]

theorem Elsewhere.finish (h : Elsewhere wq) (htask : wq.task = some t) : Elsewhere (wq.finish false) := by
  rw [finish_false htask]
  exact h

/-! ## Where a receiver is on its way -/

def Object.awaited (o : Object) (this : Nat) : List Job := if o.leaving then [.remove ⟨this, o.id⟩] else []

inductive Stage (w : World) (this : Nat) : Prop where
  /-- Nothing is left of the receivers that lived there. -/
  | gone (ho : w.objects this = none) (hout : this ∉ w.instances) (hjobs : standing w.wq this = [])
  /-- The receiver waits for its `add`. -/
  | waiting (o : Object) (ho : w.objects this = some o) (hid : o.id < w.constructed) (hout : this ∉ w.instances)
      (hjobs : standing w.wq this = .add ⟨this, o.id⟩ :: o.awaited this)
      (hadd : .add ⟨this, o.id⟩ ∉ w.ran) (hremove : .remove ⟨this, o.id⟩ ∉ w.ran)
  | registered (o : Object) (ho : w.objects this = some o) (hid : o.id < w.constructed) (hin : this ∈ w.instances)
      (hjobs : standing w.wq this = o.awaited this)
      (hadd : .add ⟨this, o.id⟩ ∈ w.ran) (hremove : .remove ⟨this, o.id⟩ ∉ w.ran)

structure Inv (w : World) : Prop where
  elsewhere : Elsewhere w.wq
  stage : ∀ this, Stage w this
  ran_lt : ∀ i, .add i ∈ w.ran ∨ .remove i ∈ w.ran → i.id < w.constructed
  lives : ∀ i, w.Registered i → ∃ o, w.objects i.this = some o ∧ i = ⟨i.this, o.id⟩
  sorted : SortedVector.Ordered w.endpointVariant w.instances
  nodup : w.instances.Nodup

variable {w w' : World}

/-- What is done for other addresses does not move a receiver on. -/
theorem Stage.frame (h : Stage w this) (ho : w'.objects this = w.objects this) (hid : w.constructed ≤ w'.constructed)
    (hin : this ∈ w'.instances ↔ this ∈ w.instances) (hjobs : standing w'.wq this = standing w.wq this)
    (hran : ∀ job, job.about this = true → (job ∈ w'.ran ↔ job ∈ w.ran)) : Stage w' this := by
  have hadd : ∀ id, (.add ⟨this, id⟩ ∈ w'.ran ↔ .add ⟨this, id⟩ ∈ w.ran) := fun id => hran _ (by simp [Job.about])
  have hremove : ∀ id, (.remove ⟨this, id⟩ ∈ w'.ran ↔ .remove ⟨this, id⟩ ∈ w.ran) :=
    fun id => hran _ (by simp [Job.about])
  cases h with
  | gone h₁ h₂ h₃ => exact .gone (ho.trans h₁) (mt hin.mp h₂) (hjobs.trans h₃)
  | waiting o h₁ h₂ h₃ h₄ h₅ h₆ =>
    exact .waiting o (ho.trans h₁) (Nat.lt_of_lt_of_le h₂ hid) (mt hin.mp h₃) (hjobs.trans h₄) (mt (hadd o.id).mp h₅)
      (mt (hremove o.id).mp h₆)
  | registered o h₁ h₂ h₃ h₄ h₅ h₆ =>
    exact .registered o (ho.trans h₁) (Nat.lt_of_lt_of_le h₂ hid) (hin.mpr h₃) (hjobs.trans h₄) ((hadd o.id).mpr h₅)
      (mt (hremove o.id).mp h₆)

theorem inv_start (memory : Nat → EndpointVariant) : Inv { endpointVariant := memory } where
  elsewhere _ _ _ ht := absurd ht List.not_mem_nil
  stage _ := .gone rfl List.not_mem_nil rfl
  ran_lt _ h := by
    rcases h with h | h
    · exact absurd h List.not_mem_nil
    · exact absurd h List.not_mem_nil
  lives _ h := absurd h.1 List.not_mem_nil
  sorted := List.Pairwise.nil
  nodup := List.nodup_nil

/-- What is still to run for an address begins with the task that is taken for it. -/
theorem standing_of_taken (htask : wq.task = some t) (this : Nat) (habout : t.task.about this = true) :
    standing wq this = t.task :: standing (wq.finish false) this := by
  rw [standing_finish htask this, List.filter_cons_of_pos habout, List.filter_nil, List.singleton_append]

/-- An `add` runs for a receiver that waits for it. -/
theorem Inv.add_taken (h : Inv w) {i : Instance} (htask : w.wq.task = some t) (ht : t.task = .add i) :
    ∃ o, w.objects i.this = some o ∧ i = ⟨i.this, o.id⟩ ∧ o.id < w.constructed ∧
      standing (w.wq.finish false) i.this = o.awaited i.this ∧ .remove i ∉ w.ran := by
  have hjobs := standing_of_taken htask i.this (by simp [ht, Job.about])
  rw [ht] at hjobs
  cases h.stage i.this with
  | gone _ _ hstanding =>
    rw [hjobs] at hstanding
    cases hstanding
  | waiting o ho hid _ hstanding _ hremove =>
    rw [hjobs, List.cons.injEq, Job.add.injEq] at hstanding
    obtain ⟨hi, hrest⟩ := hstanding
    rw [← hi] at hremove
    exact ⟨o, ho, hi, hid, hrest, hremove⟩
  | registered o _ _ _ hstanding _ _ =>
    rw [hjobs, Object.awaited] at hstanding
    cases hleaving : o.leaving with
    | false => simp [hleaving] at hstanding
    | true => simp [hleaving] at hstanding

/-- A `remove` runs for a receiver that is registered, and is the last task for it. -/
theorem Inv.remove_taken (h : Inv w) {i : Instance} (htask : w.wq.task = some t) (ht : t.task = .remove i) :
    ∃ o, w.objects i.this = some o ∧ i = ⟨i.this, o.id⟩ ∧ o.id < w.constructed ∧ i.this ∈ w.instances ∧
      standing (w.wq.finish false) i.this = [] := by
  have hjobs := standing_of_taken htask i.this (by simp [ht, Job.about])
  rw [ht] at hjobs
  cases h.stage i.this with
  | gone _ _ hstanding =>
    rw [hjobs] at hstanding
    cases hstanding
  | waiting o _ _ _ hstanding _ _ =>
    rw [hjobs, List.cons.injEq] at hstanding
    cases hstanding.1
  | registered o ho hid hin hstanding _ _ =>
    rw [hjobs, Object.awaited] at hstanding
    cases hleaving : o.leaving with
    | false => simp [hleaving] at hstanding
    | true =>
      rw [hleaving, if_pos rfl, List.cons.injEq, Job.remove.injEq] at hstanding
      exact ⟨o, ho, hstanding.1, hid, hin, hstanding.2⟩

/-! ## Every event keeps the receivers on their way -/

/-- The queue may change as long as the same is to run for every address. -/
theorem Inv.queue (h : Inv w) {wq : WorkQueue Job} (helsewhere : Elsewhere wq)
    (hstanding : ∀ this, standing wq this = standing w.wq this) : Inv { w with wq } where
  elsewhere := helsewhere
  stage this := (h.stage this).frame rfl (Nat.le_refl _) Iff.rfl (hstanding this) fun _ _ => Iff.rfl
  ran_lt := h.ran_lt
  lives := h.lives
  sorted := h.sorted
  nodup := h.nodup

theorem Inv.construct {aIdentity : EndpointVariant} (h : Inv w) (hstep : w.construct this aIdentity = some w') :
    Inv w' := by
  unfold World.construct at hstep
  cases hfree : w.objects this with
  | some o => simp [hfree] at hstep
  | none =>
    simp only [hfree, Option.some.injEq] at hstep
    subst hstep
    obtain ⟨hout, hidle⟩ : this ∉ w.instances ∧ standing w.wq this = [] := by
      cases h.stage this with
      | gone _ hout hidle => exact ⟨hout, hidle⟩
      | waiting o ho => cases hfree.symm.trans ho
      | registered o ho => cases hfree.symm.trans ho
    constructor
    · exact h.elsewhere.push (Or.inl rfl)
    · intro this'
      by_cases hne : this' = this
      · subst hne
        refine .waiting { id := w.constructed } (Function.update_self ..) (Nat.lt_succ_self _) hout ?_ ?_ ?_
        · rw [standing_push, hidle]
          simp [Job.about, Object.awaited]
        · intro hran
          exact Nat.lt_irrefl _ (h.ran_lt _ (Or.inl hran))
        · intro hran
          exact Nat.lt_irrefl _ (h.ran_lt _ (Or.inr hran))
      · refine (h.stage this').frame (Function.update_of_ne hne ..) (Nat.le_succ _) Iff.rfl ?_ ?_
        · exact standing_push_of_not_about (by simp [Job.about, Ne.symm hne])
        · exact fun _ _ => Iff.rfl
    · intro i hi
      exact Nat.lt_succ_of_lt (h.ran_lt i hi)
    · intro i hi
      obtain ⟨o, ho, hid⟩ := h.lives i hi
      have hne : i.this ≠ this := by
        intro heq
        rw [heq, hfree] at ho
        cases ho
      exact ⟨o, by simp only [Function.update_of_ne hne, ho], hid⟩
    · refine List.Pairwise.imp_of_mem ?_ h.sorted
      intro a b ha hb hle
      have hna : a ≠ this := fun heq => hout (heq ▸ ha)
      have hnb : b ≠ this := fun heq => hout (heq ▸ hb)
      simpa only [Function.update_of_ne hna, Function.update_of_ne hnb] using hle
    · exact h.nodup

theorem Inv.destruct (h : Inv w) (hstep : w.destruct this = some w') : Inv w' := by
  unfold World.destruct at hstep
  cases ho : w.objects this with
  | none => simp [ho] at hstep
  | some o =>
    cases hleaving : o.leaving with
    | true => simp [ho, hleaving] at hstep
    | false =>
      simp only [ho, hleaving, Bool.false_eq_true, if_false, Option.some.injEq] at hstep
      subst hstep
      have hnothing : o.awaited this = [] := by rw [Object.awaited, hleaving, if_neg Bool.false_ne_true]
      have hpushed : standing (w.wq.push ⟨.remove ⟨this, o.id⟩, .default⟩) this =
          standing w.wq this ++ [.remove ⟨this, o.id⟩] := by
        rw [standing_push]
        simp [Job.about]
      constructor
      · exact h.elsewhere.push (Or.inl rfl)
      · intro this'
        by_cases hne : this' = this
        · subst hne
          -- the task goes behind the one of the constructor, if that is still to run
          cases h.stage this' with
          | gone ho' => cases ho.symm.trans ho'
          | waiting o' ho' hid hout hjobs hadd hremove =>
            obtain rfl : o = o' := Option.some.inj (ho.symm.trans ho')
            refine .waiting { o with leaving := true } (Function.update_self ..) hid hout ?_ hadd hremove
            rw [hpushed, hjobs, hnothing]
            rfl
          | registered o' ho' hid hin hjobs hadd hremove =>
            obtain rfl : o = o' := Option.some.inj (ho.symm.trans ho')
            refine .registered { o with leaving := true } (Function.update_self ..) hid hin ?_ hadd hremove
            rw [hpushed, hjobs, hnothing]
            rfl
        · refine (h.stage this').frame (Function.update_of_ne hne ..) (Nat.le_refl _) Iff.rfl ?_ ?_
          · exact standing_push_of_not_about (by simp [Job.about, Ne.symm hne])
          · exact fun _ _ => Iff.rfl
      · exact h.ran_lt
      · intro i hi
        obtain ⟨o', ho', hid⟩ := h.lives i hi
        by_cases hne : i.this = this
        · subst hne
          obtain rfl : o = o' := Option.some.inj (ho.symm.trans ho')
          exact ⟨{ o with leaving := true }, Function.update_self .., hid⟩
        · exact ⟨o', by simp only [Function.update_of_ne hne, ho'], hid⟩
      · exact h.sorted
      · exact h.nodup

theorem Inv.invoke_other (h : Inv w) {again : Bool} (htask : w.wq.task = some t) (ht : t.task = .other) :
    Inv { w with wq := w.wq.finish again } := by
  have hnot : ∀ this, t.task.about this = false := by
    intro this
    rw [ht]
    rfl
  cases again with
  | false =>
    exact h.queue (h.elsewhere.finish htask) fun this => standing_finish_of_not_about htask (hnot this)
  | true =>
    obtain ⟨job, aPrio⟩ := t
    obtain rfl : job = .other := ht
    rw [finish_true htask]
    apply h.queue ((h.elsewhere.finish htask).push (Or.inr rfl))
    intro this
    rw [standing_push_other, standing_finish_of_not_about htask (hnot this)]

/-- A task that has been run for one address is no task for another. -/
theorem mem_ran_of_about {job' : Job} (hnot : job.about this = false) (habout : job'.about this = true) :
    job' ∈ w.ran ++ [job] ↔ job' ∈ w.ran := by
  simp [Job.ne_of_about habout hnot]

theorem Inv.invoke_add (h : Inv w) {i : Instance} (htask : w.wq.task = some t) (ht : t.task = .add i) :
    Inv { w with
      wq := w.wq.finish false
      instances := OrderedInstanceRegistry.add w.endpointVariant w.instances i.this
      ran := w.ran ++ [.add i] } := by
  obtain ⟨o, ho, hi, hid, hjobs, hremove⟩ := h.add_taken htask ht
  have hmem : ∀ this, this ∈ OrderedInstanceRegistry.add w.endpointVariant w.instances i.this ↔
      this = i.this ∨ this ∈ w.instances := fun this => OrderedInstanceRegistry.mem_add h.sorted
  constructor
  · exact h.elsewhere.finish htask
  · intro this
    by_cases hne : this = i.this
    · subst hne
      refine .registered o ho hid ((hmem i.this).mpr (Or.inl rfl)) hjobs ?_ ?_
      · rw [← hi]
        exact List.mem_append_right _ (List.mem_singleton_self _)
      · rw [← hi]
        simpa using hremove
    · have hnot : (Job.add i).about this = false := by simp [Job.about, Ne.symm hne]
      refine (h.stage this).frame rfl (Nat.le_refl _) ?_ ?_ ?_
      · exact (hmem this).trans (or_iff_right hne)
      · exact standing_finish_of_not_about htask (ht ▸ hnot)
      · exact fun _ habout => mem_ran_of_about hnot habout
  · intro j hj
    rcases hj with hj | hj
    · rcases List.mem_append.mp hj with hj | hj
      · exact h.ran_lt j (Or.inl hj)
      · rw [Job.add.inj (List.mem_singleton.mp hj), hi]
        exact hid
    · exact h.ran_lt j (Or.inr (by simpa using hj))
  · intro j hj
    rcases List.mem_append.mp hj.1 with hadd | hadd
    · exact h.lives j ⟨hadd, fun hran => hj.2 (List.mem_append_left _ hran)⟩
    · rw [Job.add.inj (List.mem_singleton.mp hadd)]
      exact ⟨o, ho, hi⟩
  · exact OrderedInstanceRegistry.add_ordered h.sorted i.this
  · exact OrderedInstanceRegistry.add_nodup h.sorted h.nodup i.this

theorem Inv.invoke_remove (h : Inv w) {i : Instance} (htask : w.wq.task = some t) (ht : t.task = .remove i) :
    Inv { w with
      wq := w.wq.finish false
      instances := w.instances.erase i.this
      objects := Function.update w.objects i.this none
      ran := w.ran ++ [.remove i] } := by
  obtain ⟨o, ho, hi, hid, -, hjobs⟩ := h.remove_taken htask ht
  constructor
  · exact h.elsewhere.finish htask
  · intro this
    by_cases hne : this = i.this
    · subst hne
      exact .gone (Function.update_self ..) h.nodup.not_mem_erase hjobs
    · have hnot : (Job.remove i).about this = false := by simp [Job.about, Ne.symm hne]
      refine (h.stage this).frame (Function.update_of_ne hne ..) (Nat.le_refl _) ?_ ?_ ?_
      · exact List.mem_erase_of_ne hne
      · exact standing_finish_of_not_about htask (ht ▸ hnot)
      · exact fun _ habout => mem_ran_of_about hnot habout
  · intro j hj
    rcases hj with hj | hj
    · exact h.ran_lt j (Or.inl (by simpa using hj))
    · rcases List.mem_append.mp hj with hj | hj
      · exact h.ran_lt j (Or.inr hj)
      · rw [Job.remove.inj (List.mem_singleton.mp hj), hi]
        exact hid
  · intro j hj
    have hadd : .add j ∈ w.ran := by simpa using hj.1
    obtain ⟨o', ho', hj'⟩ := h.lives j ⟨hadd, fun hran => hj.2 (List.mem_append_left _ hran)⟩
    -- of the receivers of one address, the one that lives there is the last
    have hne : j.this ≠ i.this := by
      intro heq
      rw [heq, ho, Option.some.injEq] at ho'
      have hsame : j = i := by rw [hj', hi, heq, ho']
      exact hj.2 (hsame ▸ List.mem_append_right _ (List.mem_singleton_self _))
    exact ⟨o', by simp only [Function.update_of_ne hne, ho'], hj'⟩
  · exact h.sorted.sublist List.erase_sublist
  · exact h.nodup.erase i.this

/-! ## Histories -/

theorem Inv.step (h : Inv w) {e : Event} (hstep : w.step e = some w') : Inv w' := by
  cases e with
  | construct this aIdentity => exact h.construct hstep
  | destruct this => exact h.destruct hstep
  | push aPrio =>
    obtain rfl := Option.some.inj hstep
    exact h.queue (h.elsewhere.push (Or.inr rfl)) (standing_push_other w.wq aPrio)
  | pop =>
    by_cases htask : w.wq.task = none
    · simp only [World.step, htask, if_true, Option.some.injEq] at hstep
      subst hstep
      exact h.queue h.elsewhere.pop (standing_pop h.elsewhere htask)
    · simp [World.step, htask] at hstep
  | invoke again =>
    simp only [World.step, World.invoke] at hstep
    cases htask : w.wq.task with
    | none => simp [htask] at hstep
    | some t =>
      cases ht : t.task with
      | add i =>
        simp only [htask, ht, Option.some.injEq] at hstep
        subst hstep
        exact h.invoke_add htask ht
      | remove i =>
        obtain ⟨-, -, -, -, hin, -⟩ := h.remove_taken htask ht
        simp only [htask, ht, OrderedInstanceRegistry.remove_eq hin, Option.map_some, Option.some.injEq] at hstep
        subst hstep
        exact h.invoke_remove htask ht
      | other =>
        simp only [htask, ht, Option.some.injEq] at hstep
        subst hstep
        exact h.invoke_other htask ht

/-- The registered receivers are those that live at the addresses in the registry. -/
theorem Inv.registered_iff (h : Inv w) (i : Instance) :
    w.Registered i ↔ i.this ∈ w.instances ∧ ∃ o, w.objects i.this = some o ∧ i = ⟨i.this, o.id⟩ := by
  constructor
  · intro hreg
    obtain ⟨o, ho, hi⟩ := h.lives i hreg
    refine ⟨?_, o, ho, hi⟩
    cases h.stage i.this with
    | gone ho' => cases ho.symm.trans ho'
    | waiting o' ho' _ _ _ hadd _ =>
      obtain rfl : o = o' := Option.some.inj (ho.symm.trans ho')
      exact absurd (hi ▸ hreg.1) hadd
    | registered _ _ _ hin => exact hin
  · intro ⟨hin, o, ho, hi⟩
    cases h.stage i.this with
    | gone _ hout => exact absurd hin hout
    | waiting _ _ _ hout => exact absurd hin hout
    | registered o' ho' _ _ _ hadd hremove =>
      obtain rfl : o = o' := Option.some.inj (ho.symm.trans ho')
      rw [← hi] at hadd hremove
      exact ⟨hadd, hremove⟩

def World.resident (w : World) (this : Nat) : Instance := ⟨this, (w.objects this).elim 0 Object.id⟩

theorem Inv.mem_residents (h : Inv w) (i : Instance) : i ∈ w.instances.map w.resident ↔ w.Registered i := by
  rw [h.registered_iff, List.mem_map]
  constructor
  · intro ⟨this, hin, hi⟩
    subst hi
    refine ⟨hin, ?_⟩
    cases h.stage this with
    | gone _ hout => exact absurd hin hout
    | waiting _ _ _ hout => exact absurd hin hout
    | registered o ho => exact ⟨o, ho, by rw [World.resident, ho, Option.elim_some]⟩
  · intro ⟨hin, o, ho, hi⟩
    refine ⟨i.this, hin, ?_⟩
    rw [World.resident, ho, Option.elim_some]
    exact hi.symm

theorem Inv.sound (h : Inv w) : w.Sound where
  found i aPrio htask := by
    obtain ⟨-, -, -, -, hin, -⟩ := h.remove_taken htask rfl
    exact hin
  sorted := h.sorted
  nodup := h.nodup
  exact := by
    have hthis : (w.instances.map w.resident).map Instance.this = w.instances := by
      rw [List.map_map]
      exact List.map_id _
    refine ⟨w.instances.map w.resident, ?_, h.mem_residents, hthis.symm⟩
    apply List.Nodup.of_map Instance.this
    rw [hthis]
    exact h.nodup

/-- **The registry.** Whatever receivers are constructed and destructed, and however this falls in with
    the work of the thread, a `remove` finds its receiver, and the registry has the registered
    receivers in it, once and in order. -/
theorem registry_sound (memory : Nat → EndpointVariant) (es : List Event) :
    PartialRun.Always World.step World.Sound { endpointVariant := memory } es :=
  PartialRun.always_of_step (fun _ _ _ hstep h => h.step hstep) (fun _ h => h.sound) (inv_start memory) es

end Esp32Cam.Bdg.ReceiverRegistry
