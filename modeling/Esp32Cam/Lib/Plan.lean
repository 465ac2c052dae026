/-
  Esp32Cam.Lib.Plan — operations issued one after another until one stops them.

  A plan is a list of operations; `stops n o` says that `o`, issued as the `n`-th, puts
  an end to it. A plan is `Clear` where none of its operations does, and `issued` are the
  operations that are issued: all of them (`issued_of_clear`), or those up to the one that
  stops it. `issued_append` and `issued_append_of_not_clear` take a plan apart.
-/

namespace Esp32Cam.Lib.Plan

variable {ω : Type} (stops : Nat → ω → Prop)

/-- No operation stops the plan, whose first operation is the `n`-th issued. -/
def Clear : Nat → List ω → Prop
  | _, [] => True
  | n, o :: os => ¬ stops n o ∧ Clear (n + 1) os

def issued [∀ n o, Decidable (stops n o)] : Nat → List ω → List ω
  | _, [] => []
  | n, o :: os => o :: if stops n o then [] else issued (n + 1) os

variable {stops} {n : Nat} {xs ys : List ω}

theorem clear_append : Clear stops n (xs ++ ys) ↔ Clear stops n xs ∧ Clear stops (n + xs.length) ys := by
  induction xs generalizing n with
  | nil => simp [Clear]
  | cons x xs ih =>
    simp only [List.cons_append, Clear, ih, List.length_cons, and_assoc]
    rw [Nat.add_assoc, Nat.add_comm 1]

theorem clear_of_forall (h : ∀ o ∈ xs, ∀ m, ¬ stops m o) (n : Nat) : Clear stops n xs := by
  induction xs generalizing n with
  | nil => trivial
  | cons x xs ih =>
    obtain ⟨hx, hxs⟩ := List.forall_mem_cons.mp h
    exact ⟨hx n, ih hxs (n + 1)⟩

variable [∀ n o, Decidable (stops n o)]

theorem issued_of_clear (h : Clear stops n xs) : issued stops n xs = xs := by
  induction xs generalizing n with
  | nil => rfl
  | cons x xs ih => rw [issued, if_neg h.1, ih h.2]

/-- Behind a clear plan the next one goes on. -/
theorem issued_append (h : Clear stops n xs) : issued stops n (xs ++ ys) = xs ++ issued stops (n + xs.length) ys := by
  induction xs generalizing n with
  | nil => rfl
  | cons x xs ih =>
    rw [List.cons_append, issued, if_neg h.1, ih h.2, List.length_cons, Nat.add_assoc, Nat.add_comm 1, List.cons_append]

/-- A plan that is stopped is stopped whatever follows it. -/
theorem issued_append_of_not_clear (h : ¬ Clear stops n xs) : issued stops n (xs ++ ys) = issued stops n xs := by
  induction xs generalizing n with
  | nil => exact absurd trivial h
  | cons x xs ih =>
    rw [List.cons_append, issued, issued]
    by_cases hx : stops n x
    · rw [if_pos hx, if_pos hx]
    · rw [if_neg hx, if_neg hx, ih fun hclear => h ⟨hx, hclear⟩]

omit [∀ n o, Decidable (stops n o)] in
theorem clear_congr {stops' : Nat → ω → Prop} (h : ∀ m o, stops m o ↔ stops' m o) :
    Clear stops n xs ↔ Clear stops' n xs := by
  induction xs generalizing n with
  | nil => exact Iff.rfl
  | cons x xs ih => exact and_congr (not_congr (h n x)) ih

theorem issued_congr {stops' : Nat → ω → Prop} [∀ n o, Decidable (stops' n o)] (h : ∀ m o, stops m o ↔ stops' m o) :
    issued stops n xs = issued stops' n xs := by
  induction xs generalizing n with
  | nil => rfl
  | cons x xs ih => simp only [issued, h n x, ih]

end Esp32Cam.Lib.Plan
