/-
  Esp32Cam.Lib.Run — runs of a step function.

  A system is a step function `step : σ → ε → σ`; a run is a start state and a list
  of events. `Always` says a property of every state of a run, `Along` a property of
  every step (the state it is taken in and its event).

  - `along_of_along`: what follows from being allowed, under an invariant that every
    allowed step keeps, holds of every step of a run whose steps are all allowed.
  - `always_iff_along`: where a step keeps the property exactly when it is allowed,
    the property holds throughout a run exactly when every step of it is allowed.
  - `along_iff`: two properties of steps that agree under an invariant agree on runs,
    and `alongWhile_iff` on the part of a run before it leaves a set of states.
-/

namespace Esp32Cam.Lib

variable {σ ε : Type}

def run (step : σ → ε → σ) (s : σ) (es : List ε) : σ := es.foldl step s

def Always (step : σ → ε → σ) (P : σ → Prop) : σ → List ε → Prop
  | s, [] => P s
  | s, e :: es => P s ∧ Always step P (step s e) es

def Along (step : σ → ε → σ) (G : σ → ε → Prop) : σ → List ε → Prop
  | _, [] => True
  | s, e :: es => G s e ∧ Along step G (step s e) es

/-- `G` holds of every step of the run, up to the first state out of `W`. -/
def AlongWhile (step : σ → ε → σ) (W : σ → Prop) (G : σ → ε → Prop) : σ → List ε → Prop
  | _, [] => True
  | s, e :: es => W s → G s e ∧ AlongWhile step W G (step s e) es

def EndsAt (step : σ → ε → σ) (P : σ → Prop) : σ → List ε → Prop
  | s, [] => P s
  | s, e :: es => ¬ P s ∧ EndsAt step P (step s e) es

instance EndsAt.decidable (step : σ → ε → σ) (P : σ → Prop) [DecidablePred P] :
    ∀ (s : σ) (es : List ε), Decidable (EndsAt step P s es)
  | s, [] => inferInstanceAs (Decidable (P s))
  | s, e :: es =>
    have := EndsAt.decidable step P (step s e) es
    inferInstanceAs (Decidable (¬ P s ∧ EndsAt step P (step s e) es))

variable {step : σ → ε → σ} {P Q I W : σ → Prop} {G H : σ → ε → Prop}

@[simp] theorem run_nil (s : σ) : run step s [] = s := rfl
@[simp] theorem run_cons (s : σ) (e : ε) (es : List ε) : run step s (e :: es) = run step (step s e) es := rfl

theorem run_append (s : σ) (es fs : List ε) : run step s (es ++ fs) = run step (run step s es) fs :=
  List.foldl_append

theorem Always.head {s : σ} {es : List ε} (h : Always step P s es) : P s := by
  cases es with
  | nil => exact h
  | cons e es => exact h.1

theorem Always.last {s : σ} {es : List ε} (h : Always step P s es) : P (run step s es) := by
  induction es generalizing s with
  | nil => exact h
  | cons e es ih => exact ih h.2

theorem Always.mono (hPQ : ∀ s, P s → Q s) {s : σ} {es : List ε} (h : Always step P s es) : Always step Q s es := by
  induction es generalizing s with
  | nil => exact hPQ s h
  | cons e es ih => exact ⟨hPQ s h.1, ih h.2⟩

/-- What holds of the steps from the states of a run holds along it. -/
theorem Always.along (hPG : ∀ s e, P s → G s e) {s : σ} {es : List ε} (h : Always step P s es) : Along step G s es := by
  induction es generalizing s with
  | nil => trivial
  | cons e es ih => exact ⟨hPG s e h.1, ih h.2⟩

/-- What holds along a run holds of each of its steps. -/
theorem Along.at {s : σ} {pre : List ε} {e : ε} {post : List ε} (h : Along step G s (pre ++ e :: post)) :
    G (run step s pre) e := by
  induction pre generalizing s with
  | nil => exact h.1
  | cons d pre ih => exact ih h.2

/-- What holds of each step of a run holds along it. -/
theorem along_of_each {s : σ} {es : List ε} (h : ∀ pre e post, es = pre ++ e :: post → G (run step s pre) e) :
    Along step G s es := by
  induction es generalizing s with
  | nil => trivial
  | cons e es ih =>
    refine ⟨h [] e es rfl, ih fun pre d post heq => ?_⟩
    exact h (e :: pre) d post (by rw [heq, List.cons_append])

/-- An invariant every step keeps holds throughout every run. -/
theorem always_of_step (hstep : ∀ s e, I s → I (step s e)) {s : σ} (hs : I s) (es : List ε) : Always step I s es := by
  induction es generalizing s with
  | nil => exact hs
  | cons e es ih => exact ⟨hs, ih (hstep s e hs)⟩

/-- Where a step from an `I`-state keeps `P` exactly when `G` allows it, and an allowed
    step keeps `I`, a run stays in `P` exactly when `G` allows every step of it. -/
theorem always_iff_along (hI : ∀ s e, I s → P s → G s e → I (step s e))
    (hP : ∀ s e, I s → P s → (P (step s e) ↔ G s e)) {s : σ} {es : List ε} (hi : I s) (hp : P s) :
    Always step P s es ↔ Along step G s es := by
  induction es generalizing s with
  | nil => exact ⟨fun _ => trivial, fun _ => hp⟩
  | cons e es ih =>
    constructor
    · intro h
      have hg : G s e := (hP s e hi hp).mp h.2.head
      exact ⟨hg, (ih (hI s e hi hp hg) h.2.head).mp h.2⟩
    · intro h
      exact ⟨hp, (ih (hI s e hi hp h.1) ((hP s e hi hp).mpr h.1)).mpr h.2⟩

/-- A property of every step that follows, under an invariant, from being allowed. -/
theorem along_of_along (hI : ∀ s e, I s → G s e → I (step s e)) (hH : ∀ s e, I s → G s e → H s e) {s : σ}
    {es : List ε} (hs : I s) (h : Along step G s es) : Along step H s es := by
  induction es generalizing s with
  | nil => trivial
  | cons e es ih => exact ⟨hH s e hs h.1, ih (hI s e hs h.1) h.2⟩

/-- Two properties of steps that agree under an invariant every step keeps agree on runs. -/
theorem along_iff (hI : ∀ s e, I s → I (step s e)) (hGH : ∀ s e, I s → (G s e ↔ H s e)) {s : σ} {es : List ε}
    (hs : I s) : Along step G s es ↔ Along step H s es := by
  induction es generalizing s with
  | nil => exact Iff.rfl
  | cons e es ih => exact and_congr (hGH s e hs) (ih (hI s e hs))

/-- Two properties of steps that agree under an invariant agree on runs while they last. -/
theorem alongWhile_iff (hI : ∀ s e, I s → W s → W (step s e) → I (step s e))
    (hGH : ∀ s e, I s → W s → (G s e ↔ H s e)) {s : σ} {es : List ε} (hs : W s → I s) :
    AlongWhile step W G s es ↔ AlongWhile step W H s es := by
  induction es generalizing s with
  | nil => exact Iff.rfl
  | cons e es ih => exact imp_congr_right fun hw => and_congr (hGH s e (hs hw) hw) (ih (hI s e (hs hw) hw))

end Esp32Cam.Lib
