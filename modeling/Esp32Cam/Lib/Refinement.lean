/-
  Esp32Cam.Lib.Refinement — two step functions with answers, one of them the specification.

  A step takes a state and an event to the next state and an answer, or fails (`none`).
  `trace` is a run: the last state and the answers.

  `Refines R step spec`: from related states either both fail at an event, or both come to
  related states with one answer. Then so do their runs (`Refines.trace`).
-/

import Mathlib.Logic.Basic

namespace Esp32Cam.Lib

variable {σ τ ε ω : Type}

def trace (step : σ → ε → Option (σ × ω)) : σ → List ε → Option (σ × List ω)
  | s, [] => some (s, [])
  | s, e :: es => (step s e).bind fun (s, answer) => (trace step s es).map fun (s, answers) => (s, answer :: answers)

def Refines (R : σ → τ → Prop) (step : σ → ε → Option (σ × ω)) (spec : τ → ε → Option (τ × ω)) : Prop :=
  ∀ s t e, R s t → Option.Rel (fun p q => R p.1 q.1 ∧ p.2 = q.2) (step s e) (spec t e)

section
variable {α β γ δ : Type} {P P' : α → β → Prop} {Q : γ → δ → Prop} {x : Option α} {y : Option β}

theorem rel_mono (h : Option.Rel P x y) (hP : ∀ a b, P a b → P' a b) : Option.Rel P' x y := by
  cases h with
  | some hab => exact .some (hP _ _ hab)
  | none => exact .none

theorem rel_bind {f : α → Option γ} {g : β → Option δ} (h : Option.Rel P x y)
    (hfg : ∀ a b, P a b → Option.Rel Q (f a) (g b)) : Option.Rel Q (x.bind f) (y.bind g) := by
  cases h with
  | some hab => exact hfg _ _ hab
  | none => exact .none

theorem rel_map {f : α → γ} {g : β → δ} (h : Option.Rel P x y) (hfg : ∀ a b, P a b → Q (f a) (g b)) :
    Option.Rel Q (x.map f) (y.map g) := by
  cases h with
  | some hab => exact .some (hfg _ _ hab)
  | none => exact .none

end

theorem Refines.trace {R : σ → τ → Prop} {step : σ → ε → Option (σ × ω)} {spec : τ → ε → Option (τ × ω)}
    (h : Refines R step spec) {s : σ} {t : τ} (hst : R s t) (es : List ε) :
    Option.Rel (fun p q => R p.1 q.1 ∧ p.2 = q.2) (trace step s es) (trace spec t es) := by
  induction es generalizing s t with
  | nil => exact .some ⟨hst, rfl⟩
  | cons e es ih =>
    refine rel_bind (h s t e hst) ?_
    intro (s, answer) (t, answer') ⟨hst, hanswer⟩
    refine rel_map (ih hst) ?_
    intro (s, answers) (t, answers') ⟨hst, hanswers⟩
    exact ⟨hst, congrArg₂ List.cons hanswer hanswers⟩

end Esp32Cam.Lib
