/-
  Esp32Cam.Lib.Mutex — calls of a thread that may hold a mutex already.

  The mutex is not recursive: a thread that holds it and asks for it again waits for
  itself for good. `Locked α` is a call by a thread that holds the mutex or does not,
  and `lockGuard` a block that takes it and gives it back however the block ends, so
  behind a call the thread holds the mutex exactly if it did before.

  - `lockGuard_bind_held`: a guarded block that starts with a guarded block never returns.
  - `Safe`: what never deadlocks on a thread that does not hold the mutex; work without
    the mutex, a guarded block of such work, and safe calls one after another are safe.
-/

import Mathlib.Logic.Basic

namespace Esp32Cam.Lib

inductive Outcome (α : Type) where
  | returned (a : α)
  | threw
  /-- The thread waits for a mutex it holds itself. -/
  | deadlocked
  deriving DecidableEq, Repr

variable {α β : Type}

def Outcome.toOption : Outcome α → Option α
  | .returned a => some a
  | .threw => none
  | .deadlocked => none

/-- A call, on a thread that holds the mutex (`true`) or does not. -/
def Locked (α : Type) : Type := Bool → Outcome α

namespace Locked

def bind (call : Locked α) (next : α → Locked β) : Locked β := fun held =>
  match call held with
  | .returned a => next a held
  | .threw => .threw
  | .deadlocked => .deadlocked

instance instMonad : Monad Locked where
  pure a := fun _ => .returned a
  bind := Locked.bind

/-- Work that takes no mutex; `none`: it throws. -/
def lift : Option α → Locked α
  | some a => fun _ => .returned a
  | none => fun _ => .threw

/-- `std::lock_guard` and the rest of its block. -/
def lockGuard (block : Locked α) : Locked α := fun held => if held then .deadlocked else block true

variable {call : Locked α} {next : α → Locked β} {held : Bool} {a : α} {b : β} {o : Option α}

/-! ## What a call comes to -/

@[simp] theorem pure_apply : (pure a : Locked α) held = .returned a := rfl
@[simp] theorem lift_some : lift (some a) held = .returned a := rfl
@[simp] theorem lift_none : lift (none : Option α) held = .threw := rfl

theorem bind_apply : (call >>= next) held = match call held with
    | .returned a => next a held
    | .threw => .threw
    | .deadlocked => .deadlocked := rfl

@[simp] theorem lockGuard_free : lockGuard call false = call true := rfl

/-- A block that has taken the mutex asks for it again, whatever it would do with it. -/
@[simp] theorem lockGuard_bind_held : (lockGuard call >>= next) true = .deadlocked := rfl

theorem lift_ne_deadlocked : lift o held ≠ .deadlocked := by
  cases o with
  | none => exact fun h => by cases h
  | some a => exact fun h => by cases h

/-- A guarded block on a free thread, and what is kept of its result. -/
theorem toOption_guarded (f : α → β) : ((lockGuard (lift o) >>= fun a => pure (f a)) false).toOption = o.map f := by
  cases o with
  | none => rfl
  | some a => rfl

/-! ## Calls that never deadlock -/

def Safe (call : Locked α) : Prop := call false ≠ .deadlocked

theorem safe_pure : Safe (pure a : Locked α) := fun h => by cases h

theorem safe_lift : Safe (lift o) := lift_ne_deadlocked

theorem safe_lockGuard_lift : Safe (lockGuard (lift o)) := by
  show lockGuard (lift o) false ≠ .deadlocked
  rw [lockGuard_free]
  exact lift_ne_deadlocked

theorem Safe.bind (hcall : Safe call) (hnext : ∀ a, Safe (next a)) : Safe (call >>= next) := by
  show (call >>= next) false ≠ .deadlocked
  unfold Safe at hcall
  rw [bind_apply]
  cases hout : call false with
  | returned a => exact hnext a
  | threw => exact fun h => by cases h
  | deadlocked => exact absurd hout hcall

theorem safe_foldlM {ε : Type} {f : α → ε → Locked α} (hf : ∀ a e, Safe (f a e)) (es : List ε) (a : α) :
    Safe (es.foldlM f a) := by
  induction es generalizing a with
  | nil => exact safe_pure
  | cons e es ih =>
    rw [List.foldlM_cons]
    exact (hf a e).bind ih

end Locked

end Esp32Cam.Lib
