/-
  Esp32Cam.Lib.Entries — a list of named entries, of which a search finds the first.

  `lookup` goes by the name, `delete` by a coarser comparison of names: it takes out the
  first entry whose name compares equal, which need not be the one a search finds. What is
  left of the name stays in front of an entry that is appended (`lookup_replace_self`);
  names that compare different are not affected (`lookup_replace_ne`).
-/

import Mathlib.Data.List.Basic

namespace Esp32Cam.Lib.Entries

variable {κ ν : Type} [DecidableEq κ]

def lookup (k : κ) (entries : List (κ × ν)) : Option ν := (entries.find? fun e => e.1 = k).map Prod.snd

def delete (same : κ → κ → Bool) (k : κ) (entries : List (κ × ν)) : List (κ × ν) := entries.eraseP fun e => same e.1 k

/-- The first entry that compares equal is deleted, and the new one appended. -/
def replace (same : κ → κ → Bool) (k : κ) (v : ν) (entries : List (κ × ν)) : List (κ × ν) :=
  delete same k entries ++ [(k, v)]

variable {same : κ → κ → Bool} {k j : κ} {v : ν} {entries : List (κ × ν)}

theorem lookup_append (k : κ) (as bs : List (κ × ν)) : lookup k (as ++ bs) = (lookup k as).or (lookup k bs) := by
  rw [lookup, List.find?_append]
  cases h : as.find? fun e => e.1 = k with
  | none => simp [lookup, h]
  | some e => simp [lookup, h]

theorem lookup_singleton_self (k : κ) (v : ν) : lookup k [(k, v)] = some v := by
  simp [lookup]

theorem lookup_singleton_ne (h : j ≠ k) (v : ν) : lookup j [(k, v)] = none := by
  simp [lookup, Ne.symm h]

omit [DecidableEq κ] in
theorem delete_cons (e : κ × ν) :
    delete same k (e :: entries) = if same e.1 k then entries else e :: delete same k entries := by
  unfold delete
  rw [List.eraseP_cons]
  cases same e.1 k <;> rfl

/-- A name that compares different is found as before. -/
theorem lookup_delete_ne (h : same j k = false) : lookup j (delete same k entries) = lookup j entries := by
  induction entries with
  | nil => rfl
  | cons e entries ih =>
    rw [delete_cons]
    by_cases he : same e.1 k = true
    · have hne : ¬ e.1 = j := by
        intro h
        rcases h with rfl
        rw [h] at he
        cases he
      simp [he, lookup, hne]
    · rw [if_neg he]
      by_cases hj : e.1 = j
      · simp [lookup, hj]
      · simpa [lookup, hj] using ih

theorem lookup_replace_ne (h : same j k = false) (hne : j ≠ k) :
    lookup j (replace same k v entries) = lookup j entries := by
  rw [replace, lookup_append, lookup_delete_ne h, lookup_singleton_ne hne, Option.or_none]

theorem lookup_replace_self : lookup k (replace same k v entries) = some ((lookup k (delete same k entries)).getD v) := by
  rw [replace, lookup_append, lookup_singleton_self]
  cases lookup k (delete same k entries) <;> rfl

def Single (same : κ → κ → Bool) (k : κ) (entries : List (κ × ν)) : Prop :=
  (entries.filter fun e => same e.1 k).length ≤ 1

omit [DecidableEq κ] in
theorem filter_delete_self : (delete same k entries).filter (fun e => same e.1 k) =
    (entries.filter fun e => same e.1 k).drop 1 := by
  induction entries with
  | nil => rfl
  | cons e entries ih =>
    rw [delete_cons]
    by_cases he : same e.1 k = true
    · simp [he]
    · rw [if_neg he, List.filter_cons, List.filter_cons, if_neg he, if_neg he, ih]

/-- Nothing of the name is left behind the only entry of it. -/
theorem Single.lookup_delete (hrefl : same k k = true) (h : Single same k entries) :
    lookup k (delete same k entries) = none := by
  have hnone : (delete same k entries).filter (fun e => same e.1 k) = [] := by
    rw [filter_delete_self, List.drop_eq_nil_of_le h]
  rw [lookup, Option.map_eq_none_iff, List.find?_eq_none]
  intro e he heq
  have hk : e.1 = k := by simpa using heq
  have hmem : e ∈ (delete same k entries).filter (fun e => same e.1 k) :=
    List.mem_filter.mpr ⟨he, by rw [hk]; exact hrefl⟩
  rw [hnone] at hmem
  cases hmem

omit [DecidableEq κ] in
theorem Single.replace_self (hrefl : same k k = true) (h : Single same k entries) (v : ν) :
    Single same k (replace same k v entries) := by
  have hone : [(k, v)].filter (fun e => same e.1 k) = [(k, v)] := by simp [hrefl]
  rw [Single, replace, List.filter_append, filter_delete_self, List.drop_eq_nil_of_le h, hone]
  exact Nat.le_refl _

omit [DecidableEq κ] in
/-- A name that compares different keeps its entries. -/
theorem Single.replace_ne (h : Single same j entries) (hne : ∀ i, same i k = true → same i j = false)
    (hkj : same k j = false) (v : ν) : Single same j (replace same k v entries) := by
  have hdelete : (delete same k entries).filter (fun e => same e.1 j) = entries.filter fun e => same e.1 j := by
    clear h
    induction entries with
    | nil => rfl
    | cons e entries ih =>
      rw [delete_cons]
      by_cases he : same e.1 k = true
      · simp [he, hne _ he]
      · rw [if_neg he, List.filter_cons, List.filter_cons, ih]
  have hnone : [(k, v)].filter (fun e => same e.1 j) = [] := by simp [hkj]
  rw [Single, replace, List.filter_append, hdelete, hnone, List.append_nil]
  exact h

end Esp32Cam.Lib.Entries
