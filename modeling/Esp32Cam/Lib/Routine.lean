/-
  Esp32Cam.Lib.Routine — routines that may fail, and may not return.

  A routine takes a state and leaves a state, with a result or an error; or it never
  returns, and the state is the one it got stuck in. `Ends` says that a run returns a
  result. `Upholds R Stuck` says of all runs that what they leave is related to what they
  started from by `R`, and that those that never return get stuck in a state in `Stuck`.

  A script is a routine whose code is not known: what it asks for depends on the answers
  it got so far, and each of its runs asks finitely often (`Script.upholds`).
-/

import Mathlib.Control.Lawful
import Mathlib.Order.Defs.Unbundled

namespace Esp32Cam.Lib

abbrev Routine (ε σ : Type) : Type → Type := ExceptT ε (OptionT (StateM σ))

namespace Routine

variable {ε σ α β : Type}

def exec (m : Routine ε σ α) (s : σ) : Option (Except ε α) × σ := m.run.run.run s

def step (f : σ → Except ε α × σ) : Routine ε σ α := fun s => (some (f s).1, (f s).2)

def stuck : Routine ε σ α := fun s => (none, s)

def ofExcept (r : Except ε α) : Routine ε σ α := fun s => (some r, s)

/-- The caller is given the error, too. -/
def attempt (m : Routine ε σ α) : Routine ε σ (Except ε α) := fun s => ((exec m s).1.map .ok, (exec m s).2)

/-- The caller is told of the error in its own words. -/
def mapError {ε' : Type} (f : ε → ε') (m : Routine ε σ α) : Routine ε' σ α := fun s =>
  ((exec m s).1.map (·.mapError f), (exec m s).2)

theorem exec_step (f : σ → Except ε α × σ) (s : σ) : exec (step f) s = (some (f s).1, (f s).2) := rfl

theorem exec_ofExcept (r : Except ε α) (s : σ) : exec (ofExcept r) s = (some r, s) := rfl

theorem exec_attempt (m : Routine ε σ α) (s : σ) : exec (attempt m) s = ((exec m s).1.map .ok, (exec m s).2) := rfl

theorem exec_bind (m : Routine ε σ α) (f : α → Routine ε σ β) (s : σ) : exec (m >>= f) s =
    match exec m s with
    | (some (.ok a), s') => exec (f a) s'
    | (some (.error e), s') => (some (.error e), s')
    | (none, s') => (none, s') := by
  simp only [exec, ExceptT.run_bind, OptionT.run_bind, Option.elimM, StateT.run_bind]
  rcases StateT.run (OptionT.run (ExceptT.run m)) s with ⟨_ | ⟨e | a⟩, s'⟩ <;> rfl

/-! ## Runs that end -/

def Ends (m : Routine ε σ α) (s : σ) (a : α) (s' : σ) : Prop := exec m s = (some (.ok a), s')

section
variable {m : Routine ε σ α} {f : α → Routine ε σ β} {s s' : σ} {a : α} {b : β}

theorem ends_bind : Ends (m >>= f) s b s' ↔ ∃ a t, Ends m s a t ∧ Ends (f a) t b s' := by
  unfold Ends
  rw [exec_bind]
  constructor
  · intro h
    rcases hm : exec m s with ⟨_ | ⟨e | a⟩, t⟩ <;> rw [hm] at h
    · cases h
    · cases h
    · exact ⟨a, t, rfl, h⟩
  · intro h
    rcases h with ⟨a, t, hm, hf⟩
    rw [hm]
    exact hf

theorem ends_step {g : σ → Except ε α × σ} : Ends (step g) s a s' ↔ g s = (.ok a, s') := by
  unfold Ends
  rw [exec_step]
  constructor
  · intro h
    rcases Prod.mk.inj h with ⟨hr, hs⟩
    exact Prod.ext (Option.some_inj.mp hr) hs
  · intro h
    rw [h]

theorem ends_ofExcept {r : Except ε α} : Ends (ofExcept r) s a s' ↔ r = .ok a ∧ s' = s := by
  unfold Ends
  rw [exec_ofExcept, Prod.mk.injEq, Option.some_inj]
  exact and_congr_right fun _ => eq_comm

theorem ends_pure {b : α} : Ends (pure a : Routine ε σ α) s b s' ↔ b = a ∧ s' = s := by
  change Ends (ofExcept (.ok a)) s b s' ↔ _
  rw [ends_ofExcept, Except.ok.injEq]
  exact and_congr_left fun _ => eq_comm

theorem ends_attempt {r : Except ε α} : Ends (attempt m) s r s' ↔ exec m s = (some r, s') := by
  unfold Ends
  rw [exec_attempt]
  rcases exec m s with ⟨_ | r', t⟩
  · constructor <;> intro h <;> cases h
  · constructor <;> intro h <;> cases h <;> rfl

theorem ends_mapError {ε' : Type} {g : ε → ε'} : Ends (mapError g m) s a s' ↔ Ends m s a s' := by
  have hexec : exec (mapError g m) s = ((exec m s).1.map (·.mapError g), (exec m s).2) := rfl
  unfold Ends
  rw [hexec]
  rcases exec m s with ⟨_ | ⟨e | b⟩, t⟩
  · constructor <;> intro h <;> cases h
  · constructor <;> intro h <;> cases h
  · constructor <;> intro h <;> cases h <;> rfl

end

/-! ## Routines that always end -/

def Succeeds (m : Routine ε σ α) : Prop := ∀ s, ∃ a s', Ends m s a s'

namespace Succeeds

theorem bind {m : Routine ε σ α} {f : α → Routine ε σ β} (hm : Succeeds m) (hf : ∀ a, Succeeds (f a)) :
    Succeeds (m >>= f) := by
  intro s
  obtain ⟨a, t, ha⟩ := hm s
  obtain ⟨b, s', hb⟩ := hf a t
  exact ⟨b, s', ends_bind.mpr ⟨a, t, ha, hb⟩⟩

theorem step {f : σ → Except ε α × σ} (hf : ∀ s, ∃ a, (f s).1 = .ok a) : Succeeds (Routine.step f) := by
  intro s
  obtain ⟨a, ha⟩ := hf s
  exact ⟨a, (f s).2, ends_step.mpr (Prod.ext ha rfl)⟩

theorem ofExcept {r : Except ε α} {a : α} (h : r = .ok a) : Succeeds (Routine.ofExcept r : Routine ε σ α) :=
  fun s => ⟨a, s, ends_ofExcept.mpr ⟨h, rfl⟩⟩

theorem pure (a : α) : Succeeds (Pure.pure a : Routine ε σ α) := ofExcept rfl

theorem attempt {m : Routine ε σ α} (hm : Succeeds m) : Succeeds (Routine.attempt m) := by
  intro s
  obtain ⟨a, s', ha⟩ := hm s
  exact ⟨.ok a, s', ends_attempt.mpr ha⟩

end Succeeds

/-! ## What all runs uphold -/

structure Upholds (R : σ → σ → Prop) (Stuck : σ → Prop) (m : Routine ε σ α) : Prop where
  related : ∀ s, R s (exec m s).2
  stuck : ∀ s, (exec m s).1 = none → Stuck (exec m s).2

namespace Upholds

variable {R : σ → σ → Prop} {Stuck : σ → Prop}

theorem bind [IsTrans σ R] {m : Routine ε σ α} {f : α → Routine ε σ β} (hm : Upholds R Stuck m)
    (hf : ∀ a, Upholds R Stuck (f a)) : Upholds R Stuck (m >>= f) := by
  constructor
  · intro s
    have hrel := hm.related s
    rw [exec_bind]
    rcases hr : exec m s with ⟨_ | ⟨e | a⟩, t⟩ <;> rw [hr] at hrel
    · exact hrel
    · exact hrel
    · exact IsTrans.trans _ _ _ hrel ((hf a).related t)
  · intro s
    have hstuck := hm.stuck s
    rw [exec_bind]
    rcases hr : exec m s with ⟨_ | ⟨e | a⟩, t⟩ <;> rw [hr] at hstuck
    · exact fun _ => hstuck rfl
    · intro h
      cases h
    · exact (hf a).stuck t

theorem step {f : σ → Except ε α × σ} (hf : ∀ s, R s (f s).2) : Upholds R Stuck (Routine.step f) := by
  refine ⟨hf, fun s h => ?_⟩
  rw [exec_step] at h
  cases h

theorem ofExcept [Std.Refl R] (r : Except ε α) : Upholds R Stuck (Routine.ofExcept r : Routine ε σ α) := by
  refine ⟨fun s => Std.Refl.refl s, fun s h => ?_⟩
  rw [exec_ofExcept] at h
  cases h

theorem pure [Std.Refl R] (a : α) : Upholds R Stuck (Pure.pure a : Routine ε σ α) := ofExcept (.ok a)

theorem attempt {m : Routine ε σ α} (hm : Upholds R Stuck m) : Upholds R Stuck (Routine.attempt m) := by
  refine ⟨hm.related, fun s h => hm.stuck s ?_⟩
  rw [exec_attempt] at h
  exact Option.map_eq_none_iff.mp h

end Upholds

end Routine

/-! ## Scripts -/

inductive Script (ε : Type) {Q : Type} (A : Q → Type) (α : Type) where
  | done (r : Except ε α)
  | ask (q : Q) (next : Except ε (A q) → Script ε A α)

namespace Script

variable {ε σ α Q : Type} {A : Q → Type}

def run (answer : (q : Q) → Routine ε σ (A q)) : Script ε A α → Routine ε σ α
  | .done r => Routine.ofExcept r
  | .ask q next => do
    let a ← (answer q).attempt
    (next a).run answer

def Asks (P : Q → Prop) : Script ε A α → Prop
  | .done _ => True
  | .ask q next => P q ∧ ∀ a, (next a).Asks P

theorem ends_ask {answer : (q : Q) → Routine ε σ (A q)} {q : Q} {next : Except ε (A q) → Script ε A α} {a : A q} {r : α}
    {s t s' : σ} (hq : (answer q).Ends s a t) (hnext : ((next (.ok a)).run answer).Ends t r s') :
    ((Script.ask q next).run answer).Ends s r s' :=
  Routine.ends_bind.mpr ⟨.ok a, t, Routine.ends_attempt.mpr hq, hnext⟩

theorem upholds {R : σ → σ → Prop} [IsPreorder σ R] {Stuck : σ → Prop} {P : Q → Prop}
    {answer : (q : Q) → Routine ε σ (A q)} (hanswer : ∀ q, P q → (answer q).Upholds R Stuck) (script : Script ε A α)
    (hasks : script.Asks P) : (script.run answer).Upholds R Stuck := by
  induction script with
  | done r => exact Routine.Upholds.ofExcept r
  | ask q next ih => exact (hanswer q hasks.1).attempt.bind fun a => ih a (hasks.2 a)

theorem asks_of_all {P : Q → Prop} (h : ∀ q, P q) (script : Script ε A α) : script.Asks P := by
  induction script with
  | done r => trivial
  | ask q next ih => exact ⟨h q, ih⟩

end Script

end Esp32Cam.Lib
