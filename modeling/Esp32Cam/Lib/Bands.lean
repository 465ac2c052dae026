/-
  Esp32Cam.Lib.Bands — a queue kept as one FIFO for each key.

  `q k` is the FIFO of the elements of key `k`, and taking one looks through the FIFOs in
  a fixed order of the keys. `Bands key q present` says what the FIFOs stand for: one
  list `present` in the order the elements came in, each FIFO its elements of one key.

  - `Bands.push`: an element goes to the end of its FIFO and of the list.
  - `Bands.takeFirst_cases`: what is taken is the first element of the list whose key comes
    first in the order, and the list loses it and nothing else.
  - `Bands.perm`: the FIFOs together hold what the list holds.
-/

import Mathlib.Data.List.Perm.Basic
import Mathlib.Logic.Function.Basic

namespace Esp32Cam.Lib

variable {K T : Type} [DecidableEq K] {key : T → K} {q q' : K → List T} {present : List T}

/-- The first FIFO that is not empty, in the order `ks`. -/
def takeFirst (q : K → List T) : List K → Option (T × (K → List T))
  | [] => none
  | k :: ks =>
    match q k with
    | [] => takeFirst q ks
    | x :: xs => some (x, Function.update q k xs)

def Bands (key : T → K) (q : K → List T) (present : List T) : Prop := ∀ k, q k = present.filter (key · = k)

namespace Bands

theorem nil (key : T → K) : Bands key (fun _ => []) [] := fun _ => rfl

theorem push (h : Bands key q present) (x : T) :
    Bands key (Function.update q (key x) (q (key x) ++ [x])) (present ++ [x]) := by
  intro k
  by_cases hk : key x = k
  · subst hk
    simp [h (key x)]
  · simp [Function.update_of_ne (Ne.symm hk), h k, hk]

theorem mem_iff (h : Bands key q present) (k : K) (x : T) : x ∈ q k ↔ x ∈ present ∧ key x = k := by
  simp [h k]

/-- The elements of a key, split at the first of them. -/
theorem split_filter {k : K} {x : T} {xs : List T} (h : present.filter (key · = k) = x :: xs) :
    ∃ before after, present = before ++ x :: after ∧ (∀ y ∈ before, key y ≠ k) ∧ key x = k ∧
      xs = after.filter (key · = k) := by
  obtain ⟨before, after, hpresent, hbefore, hx, hafter⟩ := List.filter_eq_cons_iff.mp h
  refine ⟨before, after, hpresent, ?_, by simpa using hx, hafter.symm⟩
  intro y hy
  simpa using hbefore y hy

/-- The first of a key is taken away. -/
theorem drop_first (h : Bands key q present) {before after : List T} {x : T} (hpresent : present = before ++ x :: after)
    (hbefore : ∀ y ∈ before, key y ≠ key x) :
    Bands key (Function.update q (key x) (after.filter (key · = key x))) (before ++ after) := by
  intro k
  by_cases hk : key x = k
  · subst hk
    have hnone : before.filter (key · = key x) = [] := by
      apply List.filter_eq_nil_iff.mpr
      intro y hy
      simpa using hbefore y hy
    simp [List.filter_append, hnone]
  · simp [Function.update_of_ne (Ne.symm hk), h k, hpresent, List.filter_append, hk]

/-- What is taken comes before everything of a key as early, and no key comes earlier. -/
theorem takeFirst_cases (h : Bands key q present) (ks : List K) :
    (takeFirst q ks = none ∧ ∀ y ∈ present, key y ∉ ks) ∨
    ∃ earlier later before after x, ks = earlier ++ key x :: later ∧ (∀ y ∈ present, key y ∉ earlier) ∧
      present = before ++ x :: after ∧ (∀ y ∈ before, key y ≠ key x) ∧
      ∃ q', takeFirst q ks = some (x, q') ∧ Bands key q' (before ++ after) := by
  induction ks with
  | nil => exact Or.inl ⟨rfl, fun _ _ => List.not_mem_nil⟩
  | cons k ks ih =>
    unfold takeFirst
    cases hq : q k with
    | nil =>
      have hnone : ∀ y ∈ present, key y ≠ k := by
        intro y hy hk
        have : y ∈ q k := (h.mem_iff k y).mpr ⟨hy, hk⟩
        simp [hq] at this
      rcases ih with ⟨htake, hkeys⟩ | ⟨earlier, later, before, after, x, hks, hearlier, rest⟩
      · refine Or.inl ⟨htake, ?_⟩
        intro y hy
        simp [hnone y hy, hkeys y hy]
      · refine Or.inr ⟨k :: earlier, later, before, after, x, by simp [hks], ?_, rest⟩
        intro y hy
        simp [hnone y hy, hearlier y hy]
    | cons x xs =>
      rw [h k] at hq
      obtain ⟨before, after, hpresent, hbefore, hx, hxs⟩ := split_filter hq
      subst hx
      refine Or.inr ⟨[], ks, before, after, x, rfl, fun _ _ => List.not_mem_nil, hpresent, hbefore, _, rfl, ?_⟩
      rw [hxs]
      exact h.drop_first hpresent hbefore

theorem perm (h : Bands key q present) {ks : List K} (hnodup : ks.Nodup) (hkeys : ∀ y ∈ present, key y ∈ ks) :
    (ks.flatMap q).Perm present := by
  have hq : q = fun k => present.filter (key · = k) := funext h
  subst hq
  clear h
  induction ks generalizing present with
  | nil =>
    have hnone : present = [] := by
      apply List.eq_nil_iff_forall_not_mem.mpr
      intro y hy
      simpa using hkeys y hy
    simp [hnone]
  | cons k ks ih =>
    obtain ⟨hk, hnodup⟩ := List.nodup_cons.mp hnodup
    have hrest : ∀ k' ∈ ks, (present.filter (key · ≠ k)).filter (key · = k') = present.filter (key · = k') := by
      intro k' hk'
      rw [List.filter_filter]
      apply List.filter_congr
      intro y _
      have hne : key y = k' → key y ≠ k := fun he hky => hk (by rw [← hky, he]; exact hk')
      by_cases he : key y = k'
      · simp [he, (he ▸ hne he : k' ≠ k)]
      · simp [he]
    have hleft : ∀ y ∈ present.filter (key · ≠ k), key y ∈ ks := by
      intro y hy
      obtain ⟨hy, hne⟩ := List.mem_filter.mp hy
      rcases List.mem_cons.mp (hkeys y hy) with h | h
      · simp [h] at hne
      · exact h
    have hothers := ih hnodup hleft
    rw [List.flatMap_cons]
    refine List.Perm.trans (List.Perm.append_left _ ?_) (List.filter_append_perm (fun y => decide (key y = k)) present)
    simp only [List.flatMap_def] at hothers ⊢
    rw [List.map_congr_left hrest] at hothers
    simpa using hothers

end Bands

end Esp32Cam.Lib
