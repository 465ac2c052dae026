/-
  Esp32Cam.Lib.Memory — byte-addressed memories and the buffers read from them.

  A memory is a function of the address. `overlay m a xs` is `m` with `xs` stored from
  `a` on, `readMem m a n` the `n` cells from `a` on, `splice xs pos ys` the list `xs`
  with `ys` stored over it from `pos` on.

  - `readMem_overlay_append`: a string stored right behind another extends it.
  - `overlay_splice_readMem`: reading a block, storing into the copy and writing the
    copy back is storing into the memory (a read-modify-write touches nothing else).
-/

namespace Esp32Cam.Lib

variable {β : Type}

def overlay (m : Nat → β) (a : Nat) (xs : List β) : Nat → β :=
  fun i => if i < a then m i else xs.getD (i - a) (m i)

def readMem (m : Nat → β) (a n : Nat) : List β := (List.range n).map fun k => m (a + k)

def splice (xs : List β) (pos : Nat) (ys : List β) : List β := xs.take pos ++ ys ++ xs.drop (pos + ys.length)

/-! ## Stored strings -/

theorem overlay_before {m : Nat → β} {a i : Nat} {xs : List β} (h : i < a) : overlay m a xs i = m i := by
  simp [overlay, h]

theorem overlay_behind {m : Nat → β} {a i : Nat} {xs : List β} (h : a + xs.length ≤ i) : overlay m a xs i = m i := by
  have ha : ¬ i < a := by omega
  have hx : xs.length ≤ i - a := by omega
  simp [overlay, ha, List.getD, List.getElem?_eq_none hx]

theorem overlay_at {m : Nat → β} {a k : Nat} {xs : List β} (h : k < xs.length) : overlay m a xs (a + k) = xs[k] := by
  have ha : ¬ a + k < a := by omega
  have hk : a + k - a = k := by omega
  simp [overlay, ha, hk, List.getD, List.getElem?_eq_getElem h]

/-- A string of one value. -/
theorem overlay_of_forall_eq {m : Nat → β} {a i : Nat} {xs : List β} {v : β} (h : ∀ x ∈ xs, x = v) :
    overlay m a xs i = if a ≤ i ∧ i < a + xs.length then v else m i := by
  split
  · next hin =>
    obtain ⟨k, rfl⟩ := Nat.exists_eq_add_of_le hin.1
    have hk : k < xs.length := by omega
    rw [overlay_at hk]
    exact h _ (List.getElem_mem hk)
  · next hout =>
    by_cases ha : i < a
    · exact overlay_before ha
    · exact overlay_behind (by omega)

/-- A cell of a memory something was stored in holds what it held, or one of the stored values. -/
theorem overlay_cases (m : Nat → β) (a i : Nat) (xs : List β) :
    overlay m a xs i = m i ∨ ∃ k, ∃ h : k < xs.length, i = a + k ∧ overlay m a xs i = xs[k] := by
  by_cases ha : i < a
  · exact Or.inl (overlay_before ha)
  · by_cases hx : a + xs.length ≤ i
    · exact Or.inl (overlay_behind hx)
    · have hk : i - a < xs.length := by omega
      have hi : i = a + (i - a) := by omega
      refine Or.inr ⟨i - a, hk, hi, ?_⟩
      rw [← overlay_at (m := m) hk, ← hi]

/-! ## Read strings -/

@[simp] theorem length_readMem (m : Nat → β) (a n : Nat) : (readMem m a n).length = n := by simp [readMem]

@[simp] theorem getElem_readMem (m : Nat → β) (a n k : Nat) (h : k < (readMem m a n).length) :
    (readMem m a n)[k] = m (a + k) := by simp [readMem]

theorem getElem?_readMem {m : Nat → β} {a n k : Nat} (h : k < n) : (readMem m a n)[k]? = some (m (a + k)) := by
  simp [readMem, h]

theorem readMem_congr {m m' : Nat → β} {a n : Nat} (h : ∀ i, a ≤ i → i < a + n → m i = m' i) :
    readMem m a n = readMem m' a n := by
  unfold readMem
  refine List.map_congr_left fun k hk => h _ (by omega) ?_
  have := List.mem_range.mp hk
  omega

theorem readMem_add (m : Nat → β) (a n k : Nat) : readMem m a (n + k) = readMem m a n ++ readMem m (a + n) k := by
  simp only [readMem, List.range_add, List.map_append, List.map_map]
  congr 1
  refine List.map_congr_left fun i _ => ?_
  simp [Nat.add_assoc]

theorem readMem_overlay_self (m : Nat → β) (a : Nat) (xs : List β) : readMem (overlay m a xs) a xs.length = xs := by
  apply List.ext_getElem (by simp)
  intro k _ h
  simpa using overlay_at h

/-- A part of a string that has been stored. -/
theorem readMem_overlay_take (m : Nat → β) (a : Nat) {xs : List β} {n : Nat} (h : n ≤ xs.length) :
    readMem (overlay m a xs) a n = xs.take n := by
  have hsplit := readMem_add (overlay m a xs) a n (xs.length - n)
  rw [Nat.add_sub_cancel' h, readMem_overlay_self] at hsplit
  have htake := congrArg (List.take n) hsplit
  rw [List.take_left' (length_readMem _ _ _)] at htake
  exact htake.symm

/-- What is stored before `b` survives a store from `b` on. -/
theorem readMem_overlay_before {m : Nat → β} {a n b : Nat} {xs : List β} (h : a + n ≤ b) :
    readMem (overlay m b xs) a n = readMem m a n :=
  readMem_congr fun _ _ hi => overlay_before (by omega)

/-- A string stored right behind another extends it. -/
theorem readMem_overlay_append (m : Nat → β) (a n : Nat) (xs : List β) :
    readMem (overlay m (a + n) xs) a (n + xs.length) = readMem m a n ++ xs := by
  rw [readMem_add, readMem_overlay_self, readMem_overlay_before (Nat.le_refl _)]

/-! ## Read-modify-write -/

@[simp] theorem length_splice {xs ys : List β} {pos : Nat} (h : pos + ys.length ≤ xs.length) :
    (splice xs pos ys).length = xs.length := by
  simp only [splice, List.length_append, List.length_take, List.length_drop]; omega

/-- Storing right behind the front. -/
theorem splice_append (front rest ys : List β) :
    splice (front ++ rest) front.length ys = front ++ (ys ++ rest.drop ys.length) := by
  rw [splice, List.take_left, ← List.drop_drop, List.drop_left, List.append_assoc]

theorem splice_nil (ys : List β) : splice [] 0 ys = ys := by
  rw [splice, List.take_zero, List.drop_nil, List.append_nil, List.nil_append]

theorem take_splice (xs ys : List β) (pos : Nat) (h : pos ≤ xs.length) :
    (splice xs pos ys).take (pos + ys.length) = xs.take pos ++ ys := by
  have hlength : (xs.take pos ++ ys).length = pos + ys.length := by
    rw [List.length_append, List.length_take, Nat.min_eq_left h]
  rw [splice, ← hlength, List.take_left]

theorem drop_splice (xs ys : List β) (pos k : Nat) (h : pos ≤ xs.length) :
    (splice xs pos ys).drop (pos + ys.length + k) = xs.drop (pos + ys.length + k) := by
  have hbefore : (xs.take pos ++ ys).length = pos + ys.length := by
    rw [List.length_append, List.length_take, Nat.min_eq_left h]
  rw [splice, ← List.drop_drop, ← hbefore, List.drop_left, List.drop_drop]

/-- Storing a string right behind another is storing them at once. -/
theorem splice_splice {xs ys zs : List β} {pos : Nat} (h : pos ≤ xs.length) :
    splice (splice xs pos ys) (pos + ys.length) zs = splice xs pos (ys ++ zs) := by
  have hbehind : (splice xs pos ys).drop (pos + ys.length + zs.length) = xs.drop (pos + (ys ++ zs).length) := by
    rw [drop_splice xs ys pos zs.length h, List.length_append, Nat.add_assoc]
  rw [splice, take_splice xs ys pos h, hbehind, splice, List.append_assoc, List.append_assoc, List.append_assoc,
    List.append_assoc]

theorem getElem?_splice {xs ys : List β} {pos : Nat} (h : pos + ys.length ≤ xs.length) (k : Nat) :
    (splice xs pos ys)[k]? = if k < pos then xs[k]? else if k < pos + ys.length then ys[k - pos]? else xs[k]? := by
  have hp : (xs.take pos).length = pos := by rw [List.length_take]; omega
  have hpy : (xs.take pos ++ ys).length = pos + ys.length := by rw [List.length_append, hp]
  unfold splice
  split
  · next h1 => rw [List.getElem?_append_left (by omega), List.getElem?_append_left (by omega), List.getElem?_take_of_lt h1]
  · next h1 =>
    split
    · next h2 => rw [List.getElem?_append_left (by omega), List.getElem?_append_right (by omega), hp]
    · next h2 =>
      rw [List.getElem?_append_right (by omega), hpy, List.getElem?_drop]
      congr 1; omega

/-- Reading a block, storing into the copy and writing it back is storing into the memory. -/
theorem overlay_splice_readMem {m : Nat → β} {p n off : Nat} {ys : List β} (h : off + ys.length ≤ n) :
    overlay m p (splice (readMem m p n) off ys) = overlay m (p + off) ys := by
  have hr : off + ys.length ≤ (readMem m p n).length := by simpa using h
  have hlen : (splice (readMem m p n) off ys).length = n := by rw [length_splice hr]; simp
  funext i
  by_cases hp : i < p
  · rw [overlay_before hp, overlay_before (by omega)]
  obtain ⟨k, rfl⟩ : ∃ k, i = p + k := ⟨i - p, by omega⟩
  by_cases hn : n ≤ k
  · rw [overlay_behind (by omega), overlay_behind (by omega)]
  have hk : k < n := by omega
  rw [overlay_at (by omega), ← Option.some_inj, ← List.getElem?_eq_getElem, getElem?_splice hr]
  split
  · rw [overlay_before (by omega), getElem?_readMem hk]
  · split
    · have e : p + k = p + off + (k - off) := by omega
      rw [e, overlay_at (by omega), ← List.getElem?_eq_getElem]
    · rw [overlay_behind (by omega), getElem?_readMem hk]

end Esp32Cam.Lib
