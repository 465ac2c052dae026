/-
  Esp32Cam.Lib.Framing — machines that read a stream byte by byte and, now and then, put something out.

  `feed` is the run over a stream and `readOne` the run up to the first output, with the
  number of symbols it has read. The run over two streams is the run over their
  concatenation (`feed_append`), and a run is the read of the first output and the run
  over what is left (`feed_readOne`).
-/

namespace Esp32Cam.Lib

variable {σ β ω : Type} (step : σ → β → σ × Option ω)

/-- The state behind the stream, and what is put out on the way. -/
def feed : σ → List β → σ × List ω
  | s, [] => (s, [])
  | s, b :: bs => ((feed (step s b).1 bs).1, (step s b).2.toList ++ (feed (step s b).1 bs).2)

/-- The number of symbols up to the first output, the state behind them, and the output. -/
def readOne : σ → List β → Nat × σ × Option ω
  | s, [] => (0, s, none)
  | s, b :: bs =>
    match step s b with
    | (s', some o) => (1, s', some o)
    | (s', none) => ((readOne s' bs).1 + 1, (readOne s' bs).2)

theorem feed_append (s : σ) (as bs : List β) :
    feed step s (as ++ bs) = ((feed step (feed step s as).1 bs).1, (feed step s as).2 ++ (feed step (feed step s as).1 bs).2) := by
  induction as generalizing s with
  | nil => rfl
  | cons a as ih => simp only [List.cons_append, feed, ih, List.append_assoc]

theorem readOne_le (s : σ) (bs : List β) : (readOne step s bs).1 ≤ bs.length := by
  induction bs generalizing s with
  | nil => exact Nat.le_refl 0
  | cons b bs ih =>
    rw [readOne, List.length_cons]
    split
    · exact Nat.le_add_left 1 _
    · exact Nat.succ_le_succ (ih _)

/-- Of a stream that is not empty something is read. -/
theorem readOne_pos (s : σ) {bs : List β} (h : bs ≠ []) : 0 < (readOne step s bs).1 := by
  cases bs with
  | nil => exact absurd rfl h
  | cons b bs =>
    rw [readOne]
    split <;> exact Nat.succ_pos _

/-- Without an output everything is read. -/
theorem readOne_of_none {s : σ} {bs : List β} (h : (readOne step s bs).2.2 = none) : (readOne step s bs).1 = bs.length := by
  induction bs generalizing s with
  | nil => rfl
  | cons b bs ih =>
    rw [readOne] at h ⊢
    split at h
    · cases h
    · exact congrArg (· + 1) (ih h)

/-- A run is the run over what is read first, and over the rest. -/
theorem feed_take_readOne (s : σ) (bs : List β) :
    feed step s (bs.take (readOne step s bs).1) = ((readOne step s bs).2.1, (readOne step s bs).2.2.toList) := by
  induction bs generalizing s with
  | nil => rfl
  | cons b bs ih =>
    rw [readOne]
    split
    · rename_i s' o hs
      simp only [List.take_succ_cons, List.take_zero, feed, hs, List.append_nil]
    · rename_i s' hs
      simp only [List.take_succ_cons, feed, hs, ih, Option.toList_none, List.nil_append]

theorem feed_readOne (s : σ) (bs : List β) : feed step s bs =
    ((feed step (readOne step s bs).2.1 (bs.drop (readOne step s bs).1)).1,
      (readOne step s bs).2.2.toList ++ (feed step (readOne step s bs).2.1 (bs.drop (readOne step s bs).1)).2) := by
  have h := feed_append step s (bs.take (readOne step s bs).1) (bs.drop (readOne step s bs).1)
  rw [List.take_append_drop, feed_take_readOne] at h
  exact h

/-- The symbols read for the first output, read again, are read to the last. -/
theorem readOne_take (s : σ) (bs : List β) : readOne step s (bs.take (readOne step s bs).1) = readOne step s bs := by
  induction bs generalizing s with
  | nil => rfl
  | cons b bs ih =>
    rw [readOne]
    split
    · rename_i s' o hs
      rw [List.take_succ_cons, List.take_zero, readOne, hs]
    · rename_i s' hs
      rw [List.take_succ_cons, readOne, hs]
      dsimp only
      rw [ih]

/-- An invariant of the states in which no single symbol makes an output: a frame has more than one. -/
theorem readOne_two (fresh : σ → Prop) (hshort : ∀ s b, fresh s → (step s b).2 = none) {s : σ} (hs : fresh s) {bs : List β}
    {o : ω} (h : (readOne step s bs).2.2 = some o) : 2 ≤ (readOne step s bs).1 := by
  cases bs with
  | nil => cases h
  | cons b bs =>
    have hb := hshort s b hs
    rw [readOne] at h ⊢
    split at h
    · rename_i s' o' hstep
      rw [hstep] at hb
      cases hb
    · have hne : bs ≠ [] := by
        intro h
        rcases h with rfl
        cases h
      exact Nat.succ_le_succ (readOne_pos step _ hne)

/-- What holds behind every output holds behind the first. -/
theorem readOne_output (fresh : σ → Prop) (hnext : ∀ s b o, (step s b).2 = some o → fresh (step s b).1) {s : σ} {bs : List β}
    {o : ω} (h : (readOne step s bs).2.2 = some o) : fresh (readOne step s bs).2.1 := by
  induction bs generalizing s with
  | nil => cases h
  | cons b bs ih =>
    rw [readOne] at h ⊢
    split at h
    · rename_i s' o' hstep
      have hfresh := hnext s b o' (by rw [hstep])
      rw [hstep] at hfresh
      exact hfresh
    · exact ih h

end Esp32Cam.Lib
