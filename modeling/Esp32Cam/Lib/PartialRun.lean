/-
  Esp32Cam.Lib.PartialRun — runs of a step function that may not return.

  `step s e = none` is a step that throws or blocks for good: the run ends with it.
  `Always` says a property of every state of a run, `Along` one of every step that
  returns, with the state it leaves.

  - `always_and_along_iff`: where a step from a state in `P` stays in `P` and behaves as `C`
    asks exactly when it is allowed, a run does so throughout exactly when every step of it
    is allowed. `always_iff_along` and `along_iff_along` are this for one of the two alone.

  `Through` asks of every step that it returns as well (`through_iff_allowed`), and
  `through_iff_allowed_under` is about the runs whose events keep to a contract.
-/

namespace Esp32Cam.Lib.PartialRun

variable {σ ε : Type}

def Always (step : σ → ε → Option σ) (P : σ → Prop) : σ → List ε → Prop
  | s, [] => P s
  | s, e :: es => P s ∧ ∀ s', step s e = some s' → Always step P s' es

def Along (step : σ → ε → Option σ) (C : σ → ε → σ → Prop) : σ → List ε → Prop
  | _, [] => True
  | s, e :: es => ∀ s', step s e = some s' → C s e s' ∧ Along step C s' es

/-- Every step of the run returns, and is as `C` asks. -/
def Through (step : σ → ε → Option σ) (C : σ → ε → σ → Prop) : σ → List ε → Prop
  | _, [] => True
  | s, e :: es => ∃ s', step s e = some s' ∧ C s e s' ∧ Through step C s' es

/-- `G` allows every event of the run, as far as it goes. -/
def Allowed (step : σ → ε → Option σ) (G : σ → ε → Prop) : σ → List ε → Prop
  | _, [] => True
  | s, e :: es => G s e ∧ ∀ s', step s e = some s' → Allowed step G s' es

instance Allowed.decidable (step : σ → ε → Option σ) (G : σ → ε → Prop) [∀ s e, Decidable (G s e)] :
    ∀ (s : σ) (es : List ε), Decidable (Allowed step G s es)
  | _, [] => inferInstanceAs (Decidable True)
  | s, e :: es =>
    have : Decidable (∀ s', step s e = some s' → Allowed step G s' es) :=
      match step s e with
      | none => isTrue fun _ hs' => nomatch hs'
      | some s' =>
        have := Allowed.decidable step G s' es
        decidable_of_iff (Allowed step G s' es) ⟨fun h _ hs' => Option.some.inj hs' ▸ h, fun h => h s' rfl⟩
    inferInstanceAs (Decidable (G s e ∧ _))

variable {step : σ → ε → Option σ} {P I : σ → Prop} {C : σ → ε → σ → Prop} {G : σ → ε → Prop} {s : σ} {es : List ε}

theorem Always.head (h : Always step P s es) : P s := by
  cases es with
  | nil => exact h
  | cons e es => exact h.1

/-- What follows from an invariant that every step keeps holds throughout every run. -/
theorem always_of_step (hI : ∀ s e s', step s e = some s' → I s → I s') (hP : ∀ s, I s → P s) (hi : I s) (es : List ε) :
    Always step P s es := by
  induction es generalizing s with
  | nil => exact hP s hi
  | cons e es ih => exact ⟨hP s hi, fun s' hs' => ih (hI s e s' hs' hi)⟩

/-- What such an invariant says of the steps that return holds along every run. -/
theorem along_of_step (hI : ∀ s e s', step s e = some s' → I s → I s') (hC : ∀ s e s', step s e = some s' → I s → C s e s')
    (hi : I s) (es : List ε) : Along step C s es := by
  induction es generalizing s with
  | nil => trivial
  | cons e es ih => exact fun s' hs' => ⟨hC s e s' hs' hi, ih (hI s e s' hs' hi)⟩

theorem always_and_along_iff (hI : ∀ s e s', step s e = some s' → I s → P s → G s e → I s')
    (hP : ∀ s e s', step s e = some s' → I s → P s → (P s' ∧ C s e s' ↔ G s e)) (hi : I s) (hp : P s) :
    Always step P s es ∧ Along step C s es ↔ Along step (fun s e _ => G s e) s es := by
  induction es generalizing s with
  | nil => exact iff_of_true ⟨hp, trivial⟩ trivial
  | cons e es ih =>
    constructor
    · intro h s' hs'
      rcases h with ⟨hall, halong⟩
      have hg : G s e := (hP s e s' hs' hi hp).mp ⟨(hall.2 s' hs').head, (halong s' hs').1⟩
      refine ⟨hg, (ih (hI s e s' hs' hi hp hg) (hall.2 s' hs').head).mp ⟨hall.2 s' hs', (halong s' hs').2⟩⟩
    · intro h
      have hnext : ∀ s', step s e = some s' → Always step P s' es ∧ C s e s' ∧ Along step C s' es := by
        intro s' hs'
        obtain ⟨hg, hrest⟩ := h s' hs'
        obtain ⟨hp', hc⟩ := (hP s e s' hs' hi hp).mpr hg
        obtain ⟨hall, halong⟩ := (ih (hI s e s' hs' hi hp hg) hp').mpr hrest
        exact ⟨hall, hc, halong⟩
      exact ⟨⟨hp, fun s' hs' => (hnext s' hs').1⟩, fun s' hs' => (hnext s' hs').2⟩

/-- The same for a property of the steps alone. -/
theorem along_iff_along (hI : ∀ s e s', step s e = some s' → I s → G s e → I s')
    (hC : ∀ s e s', step s e = some s' → I s → (C s e s' ↔ G s e)) (hi : I s) :
    Along step C s es ↔ Along step (fun s e _ => G s e) s es := by
  induction es generalizing s with
  | nil => exact Iff.rfl
  | cons e es ih =>
    constructor
    · intro h s' hs'
      have hg : G s e := (hC s e s' hs' hi).mp (h s' hs').1
      exact ⟨hg, (ih (hI s e s' hs' hi hg)).mp (h s' hs').2⟩
    · intro h s' hs'
      have hg : G s e := (h s' hs').1
      exact ⟨(hC s e s' hs' hi).mpr hg, (ih (hI s e s' hs' hi hg)).mpr (h s' hs').2⟩

/-- The same where the steps have to return, for runs whose events all keep to `K`. -/
theorem through_iff_allowed_under {K : σ → ε → Prop} (hI : ∀ s e s', step s e = some s' → I s → K s e → G s e → I s')
    (hC : ∀ s e, I s → K s e → ((∃ s', step s e = some s' ∧ C s e s') ↔ G s e)) (hi : I s) (hk : Allowed step K s es) :
    Through step C s es ↔ Allowed step G s es := by
  induction es generalizing s with
  | nil => exact Iff.rfl
  | cons e es ih =>
    rcases hk with ⟨hke, hkes⟩
    constructor
    · intro h
      rcases h with ⟨s', hs', hc, hrest⟩
      have hg : G s e := (hC s e hi hke).mp ⟨s', hs', hc⟩
      refine ⟨hg, fun s'' hs'' => ?_⟩
      obtain rfl : s' = s'' := Option.some_inj.mp (hs'.symm.trans hs'')
      exact (ih (hI s e s' hs' hi hke hg) (hkes s' hs')).mp hrest
    · intro h
      rcases h with ⟨hg, hrest⟩
      obtain ⟨s', hs', hc⟩ := (hC s e hi hke).mpr hg
      exact ⟨s', hs', hc, (ih (hI s e s' hs' hi hke hg) (hkes s' hs')).mpr (hrest s' hs')⟩

/-- What an invariant of the run allows is allowed throughout. -/
theorem allowed_of_step (hI : ∀ s e s', step s e = some s' → I s → I s') (hG : ∀ s e, I s → G s e) (hi : I s) (es : List ε) :
    Allowed step G s es := by
  induction es generalizing s with
  | nil => trivial
  | cons e es ih => exact ⟨hG s e hi, fun s' hs' => ih (hI s e s' hs' hi)⟩

/-- The same for all runs. -/
theorem through_iff_allowed (hI : ∀ s e s', step s e = some s' → I s → G s e → I s')
    (hC : ∀ s e, I s → ((∃ s', step s e = some s' ∧ C s e s') ↔ G s e)) (hi : I s) :
    Through step C s es ↔ Allowed step G s es := by
  have hall : Allowed step (fun _ _ => True) s es :=
    allowed_of_step (I := fun _ => True) (fun _ _ _ _ _ => trivial) (fun _ _ _ => trivial) trivial es
  exact through_iff_allowed_under (fun s e s' hs hi _ => hI s e s' hs hi) (fun s e hi _ => hC s e hi) hi hall

/-- A run whose steps all return, under an invariant they keep. -/
theorem through_of_step (hstep : ∀ s e, I s → ∃ s', step s e = some s' ∧ I s' ∧ C s e s') (hi : I s) (es : List ε) :
    Through step C s es := by
  induction es generalizing s with
  | nil => trivial
  | cons e es ih =>
    obtain ⟨s', hs', hi', hc⟩ := hstep s e hi
    exact ⟨s', hs', hc, ih hi'⟩

/-- Two properties of steps that agree under an invariant, which the steps that have one of them keep, agree on runs. -/
theorem allowed_iff_allowed {H : σ → ε → Prop} (hI : ∀ s e s', step s e = some s' → I s → H s e → I s')
    (hGH : ∀ s e, I s → (G s e ↔ H s e)) (hi : I s) : Allowed step G s es ↔ Allowed step H s es := by
  induction es generalizing s with
  | nil => exact Iff.rfl
  | cons e es ih =>
    constructor
    · intro h
      rcases h with ⟨hg, hrest⟩
      have hh : H s e := (hGH s e hi).mp hg
      exact ⟨hh, fun s' hs' => (ih (hI s e s' hs' hi hh)).mp (hrest s' hs')⟩
    · intro h
      rcases h with ⟨hh, hrest⟩
      exact ⟨(hGH s e hi).mpr hh, fun s' hs' => (ih (hI s e s' hs' hi hh)).mpr (hrest s' hs')⟩

/-- The same for two that agree everywhere. -/
theorem allowed_congr {H : σ → ε → Prop} (hGH : ∀ s e, G s e ↔ H s e) : Allowed step G s es ↔ Allowed step H s es :=
  allowed_iff_allowed (I := fun _ => True) (fun _ _ _ _ _ _ => trivial) (fun s e _ => hGH s e) trivial

/-- The same for a property of the states alone. -/
theorem always_iff_along (hI : ∀ s e s', step s e = some s' → I s → P s → G s e → I s')
    (hP : ∀ s e s', step s e = some s' → I s → P s → (P s' ↔ G s e)) (hi : I s) (hp : P s) :
    Always step P s es ↔ Along step (fun s e _ => G s e) s es := by
  have htrue : Along step (fun _ _ _ => True) s es := by
    clear hI hP hi hp
    induction es generalizing s with
    | nil => trivial
    | cons e es ih => exact fun s' _ => ⟨trivial, ih⟩
  rw [← always_and_along_iff (C := fun _ _ _ => True) hI (fun s e s' hs hi hp => by rw [and_true]; exact hP s e s' hs hi hp) hi hp]
  exact (and_iff_left htrue).symm

end Esp32Cam.Lib.PartialRun
