/-
  Esp32Cam.Lib.Recent — the last few distinct elements of a list.

  `recent n l` are the `n` elements of `l` that were seen last, each once, in the order
  they were last seen in. A ring of `n + 1` slots that each new element is put into holds
  them as long as none comes that it keeps already (`recent_snoc`, `recent_kept`).
-/

import Mathlib.Data.List.Dedup
import Mathlib.Data.List.DropRight

namespace Esp32Cam.Lib

variable {α : Type} [DecidableEq α] {n : Nat} {l : List α} {a : α}

def recent (n : Nat) (l : List α) : List α := l.dedup.rtake n

theorem recent_nodup : (recent n l).Nodup := l.nodup_dedup.sublist (List.drop_sublist _ _)

theorem dedup_snoc (l : List α) (a : α) : (l ++ [a]).dedup = l.dedup.filter (· ≠ a) ++ [a] := by
  induction l with
  | nil => rfl
  | cons b l ih =>
    by_cases hb : b ∈ l
    · have hb' : b ∈ l ++ [a] := List.mem_append_left _ hb
      rw [List.cons_append, List.dedup_cons_of_mem hb', List.dedup_cons_of_mem hb, ih]
    · by_cases hab : b = a
      · have hb' : b ∈ l ++ [a] := by simp [hab]
        rw [List.cons_append, List.dedup_cons_of_mem hb', List.dedup_cons_of_notMem hb, ih]
        simp [hab]
      · have hb' : b ∉ l ++ [a] := by simp [hb, hab]
        rw [List.cons_append, List.dedup_cons_of_notMem hb', List.dedup_cons_of_notMem hb, ih]
        simp [hab]

theorem rtake_filter {l : List α} (ha : a ∉ l.rtake n) : (l.filter (· ≠ a)).rtake n = l.rtake n := by
  induction l using List.reverseRecOn generalizing n with
  | nil => rfl
  | append_singleton l b ih =>
    cases n with
    | zero => simp
    | succ n =>
      rw [List.rtake_concat_succ, List.mem_append, List.mem_singleton, not_or] at ha
      have hb : [b].filter (· ≠ a) = [b] := by simp [Ne.symm ha.2]
      rw [List.filter_append, hb, List.rtake_concat_succ, List.rtake_concat_succ, ih ha.1]

/-- What was not seen of late stands behind what was. -/
theorem recent_snoc (ha : a ∉ recent n l) : recent (n + 1) (l ++ [a]) = recent n l ++ [a] := by
  unfold recent at ha ⊢
  rw [dedup_snoc, List.rtake_concat_succ, rtake_filter ha]

/-- What a ring of one slot more keeps when one is put into it. -/
theorem recent_kept : (if (recent (n + 1) l).length < n + 1 then recent (n + 1) l else (recent (n + 1) l).drop 1) =
    recent n l := by
  unfold recent List.rtake
  rw [List.length_drop]
  split
  · congr 1
    omega
  · rw [List.drop_drop]
    congr 1
    omega

end Esp32Cam.Lib
