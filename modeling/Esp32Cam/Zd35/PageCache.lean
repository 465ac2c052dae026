/-
  Esp32Cam.Zd35.PageCache — the array of the chip, the caches of its planes, and a write that spans pages.

  PROGRAM LOAD puts bytes into the cache of a plane, PROGRAM EXECUTE copies the cache of a
  plane to a page of it. Whether a load erases the rest of the cache first is left open
  (`resets`).

  A write loads the pieces of the data, one for each page, and executes once, for the page it
  starts in. That page gets what the last loads left behind; the pages behind it get nothing.
  On erased pages the result is what was asked for exactly when the data leave no trace
  behind the first page, and the loads behind the first one destroy nothing of it
  (`written_iff`).
-/

import Esp32Cam.Lib.Memory
import Esp32Cam.Zd35.Addresses
import Mathlib.Logic.Function.Basic

namespace Esp32Cam.Zd35

open Lib

theorem pageSize_eq : Zd35x2PageSize = 2048 := rfl
theorem planeSize_eq : Zd35x2PlaneSizeBytes = 134217728 := rfl

/-! ## The memory of the chip -/

structure Memory where
  array : Nat → UInt8
  /-- By the plane and the place. -/
  cache : Nat → Nat → UInt8

def erased : UInt8 := 0xFF

def planeOfPage (page : Nat) : Nat := page / (Zd35x2PaneSizeBlocks * Zd35x2BlockSizePages)

/-- The cache as a load finds it. -/
def Memory.base (resets : Bool) (m : Memory) (plane : Nat) : Nat → UInt8 :=
  if resets then fun _ => erased else m.cache plane

def Memory.programLoad (resets : Bool) (m : Memory) (cacheOffset : Nat) (buffer : List UInt8) : Memory :=
  let plane := cacheOffset / 2 ^ planeSelectByteOffset
  let loaded := overlay (m.base resets plane) (cacheOffset % 2 ^ planeSelectByteOffset) buffer
  { m with cache := Function.update m.cache plane loaded }

def Memory.programExecute (m : Memory) (page : Nat) : Memory :=
  { m with array := fun i => if i / Zd35x2PageSize = page then m.cache (planeOfPage page) (i % Zd35x2PageSize)
      else m.array i }

def Memory.pageRead (m : Memory) (page : Nat) : Memory :=
  { m with cache := Function.update m.cache (planeOfPage page) fun x => m.array (page * Zd35x2PageSize + x) }

def Memory.blockErase (m : Memory) (block : Nat) : Memory :=
  { m with array := fun i => if i / Zd35x2BlockSizeBytes = block then erased else m.array i }

/-! ## Pieces -/

def pageRoom (address : Nat) : Nat := Zd35x2PageSize - address % Zd35x2PageSize

theorem pageRoom_pos (address : Nat) : 0 < pageRoom address := Nat.sub_pos_of_lt (Nat.mod_lt _ (by decide))

/-- A range, cut at the page boundaries: where each piece starts, and its bytes. -/
def pieces (address : Nat) (data : List UInt8) : List (Nat × List UInt8) :=
  if _ : data = [] then []
  else (address, data.take (pageRoom address)) :: pieces (address + pageRoom address) (data.drop (pageRoom address))
termination_by data.length
decreasing_by
  have hpos := List.length_pos_iff.mpr ‹data ≠ []›
  have hroom := pageRoom_pos address
  rw [List.length_drop]
  omega

def Memory.loadPiece (resets : Bool) (m : Memory) (piece : Nat × List UInt8) : Memory :=
  m.programLoad resets (piece.1 / Zd35x2PlaneSizeBytes * 4096 + piece.1 % Zd35x2PageSize) piece.2

def Memory.loadPieces (resets : Bool) (m : Memory) (ps : List (Nat × List UInt8)) : Memory :=
  ps.foldl (Memory.loadPiece resets) m

section
variable {resets : Bool} {m : Memory} {address : Nat} {data buffer : List UInt8} {q : Nat}

theorem pieces_nil (address : Nat) : pieces address [] = [] := by rw [pieces, dif_pos rfl]

theorem pieces_of_ne_nil (h : data ≠ []) : pieces address data =
    (address, data.take (pageRoom address)) :: pieces (address + pageRoom address) (data.drop (pageRoom address)) := by
  rw [pieces, dif_neg h]

theorem array_loadPiece (piece : Nat × List UInt8) : (m.loadPiece resets piece).array = m.array := rfl

theorem array_loadPieces (ps : List (Nat × List UInt8)) : (m.loadPieces resets ps).array = m.array := by
  induction ps generalizing m with
  | nil => rfl
  | cons piece ps ih => exact ih.trans (array_loadPiece piece)

theorem cache_loadPiece (address : Nat) (buffer : List UInt8) : (m.loadPiece resets (address, buffer)).cache =
    Function.update m.cache (address / Zd35x2PlaneSizeBytes)
      (overlay (m.base resets (address / Zd35x2PlaneSizeBytes)) (address % Zd35x2PageSize) buffer) := by
  have hlow : address % Zd35x2PageSize < 4096 := Nat.lt_trans (Nat.mod_lt _ (by decide)) (by decide)
  have hplane : (address / Zd35x2PlaneSizeBytes * 4096 + address % Zd35x2PageSize) / 2 ^ planeSelectByteOffset =
      address / Zd35x2PlaneSizeBytes := by
    unfold planeSelectByteOffset
    omega
  have hplace : (address / Zd35x2PlaneSizeBytes * 4096 + address % Zd35x2PageSize) % 2 ^ planeSelectByteOffset =
      address % Zd35x2PageSize := by
    unfold planeSelectByteOffset
    omega
  rw [Memory.loadPiece, Memory.programLoad, hplane, hplace]

/-- The cache of a plane that the piece lies behind. -/
theorem cache_loadPiece_behind (h : (q + 1) * Zd35x2PlaneSizeBytes ≤ address) (buffer : List UInt8) :
    (m.loadPiece resets (address, buffer)).cache q = m.cache q := by
  have hplane : q + 1 ≤ address / Zd35x2PlaneSizeBytes := (Nat.le_div_iff_mul_le (by decide)).mpr h
  rw [cache_loadPiece]
  exact Function.update_of_ne (by omega) _ _

/-- The same for all pieces of a range. -/
theorem cache_loadPieces_behind (h : (q + 1) * Zd35x2PlaneSizeBytes ≤ address) :
    (m.loadPieces resets (pieces address data)).cache q = m.cache q := by
  induction address, data using pieces.induct generalizing m with
  | case1 address =>
    rw [pieces_nil]
    rfl
  | case2 address data hne ih =>
    rw [pieces_of_ne_nil hne]
    exact (ih (by omega)).trans (cache_loadPiece_behind h _)

/-- How many places the loads behind the first piece reach, if they load `n` bytes into its plane. -/
def covered (resets : Bool) (n : Nat) : Nat :=
  if resets then (if 0 < n then Zd35x2PageSize else 0) else min n Zd35x2PageSize

theorem not_lt_covered_zero (resets : Bool) (x : Nat) : ¬ x < covered resets 0 := by
  cases resets <;> exact Nat.not_lt_zero x

/-- The places that the loads of a first page and of `n` bytes behind it reach. -/
theorem lt_covered_iff (resets : Bool) {n k x : Nat} (hn : 0 < n) (hk : k = n - Zd35x2PageSize) (hx : x < Zd35x2PageSize) :
    x < covered resets n ↔ x < covered resets k ∨ x < min n Zd35x2PageSize ∨ resets = true := by
  cases resets with
  | false =>
    simp only [covered, Bool.false_eq_true, if_false, or_false]
    omega
  | true => simp [covered, hn, hx]

/-- How many of the `n` bytes from the address on lie before the end of the plane. -/
def inPlane (plane address n : Nat) : Nat := min (address + n) ((plane + 1) * Zd35x2PlaneSizeBytes) - address

/-- The loads of whole pages of erased bytes, the last one cut short. -/
theorem cache_loadPieces_erased {x : Nat} (haligned : address % Zd35x2PageSize = 0)
    (hstart : q * Zd35x2PlaneSizeBytes ≤ address) (hend : address ≤ (q + 1) * Zd35x2PlaneSizeBytes)
    (hdata : ∀ b ∈ data, b = erased) (hx : x < Zd35x2PageSize) : (m.loadPieces resets (pieces address data)).cache q x =
      if x < covered resets (inPlane q address data.length) then erased else m.cache q x := by
  induction address, data using pieces.induct generalizing m with
  | case1 address =>
    have hnone : inPlane q address 0 = 0 := by
      unfold inPlane
      omega
    rw [List.length_nil, hnone, if_neg (not_lt_covered_zero _ _), pieces_nil]
    rfl
  | case2 address data hne ih =>
    rcases Nat.lt_or_eq_of_le hend with hlt | rfl
    · have hroom : pageRoom address = Zd35x2PageSize := by rw [pageRoom, haligned, Nat.sub_zero]
      have hplane : address / Zd35x2PlaneSizeBytes = q := Nat.div_eq_of_lt_le hstart hlt
      have hpos := List.length_pos_iff.mpr hne
      rw [pieces_of_ne_nil hne, hroom]
      rw [hroom] at ih
      have hnext : address + Zd35x2PageSize ≤ (q + 1) * Zd35x2PlaneSizeBytes := by
        rw [planeSize_eq, pageSize_eq] at *
        omega
      have hrest := ih (m := m.loadPiece resets (address, data.take Zd35x2PageSize)) (by rw [Nat.add_mod_right, haligned])
        (by omega) hnext (fun b hb => hdata b (List.mem_of_mem_drop hb))
      have hpiece : (m.loadPiece resets (address, data.take Zd35x2PageSize)).cache q x =
          if x < min (inPlane q address data.length) Zd35x2PageSize then erased else m.base resets q x := by
        rw [cache_loadPiece, hplane, Function.update_self, haligned,
          overlay_of_forall_eq fun b hb => hdata b (List.mem_of_mem_take hb), List.length_take]
        unfold inPlane
        exact if_congr (by omega) rfl rfl
      have hcovered := lt_covered_iff resets (n := inPlane q address data.length)
        (k := inPlane q (address + Zd35x2PageSize) (data.drop Zd35x2PageSize).length)
        (by unfold inPlane; omega) (by rw [List.length_drop]; unfold inPlane; omega) hx
      refine hrest.trans ?_
      rw [hpiece, if_congr hcovered rfl rfl]
      -- the loads behind reach the place, or this one does, or what it finds there is kept
      by_cases hbehind : x < covered resets (inPlane q (address + Zd35x2PageSize) (data.drop Zd35x2PageSize).length)
      · rw [if_pos hbehind, if_pos (Or.inl hbehind)]
      · rw [if_neg hbehind]
        by_cases hpage : x < min (inPlane q address data.length) Zd35x2PageSize
        · rw [if_pos hpage, if_pos (Or.inr (Or.inl hpage))]
        · rw [if_neg hpage]
          cases resets with
          | false =>
            rw [if_neg (not_or.mpr ⟨hbehind, not_or.mpr ⟨hpage, Bool.false_ne_true⟩⟩)]
            rfl
          | true =>
            rw [if_pos (Or.inr (Or.inr rfl))]
            rfl
    · have hnone : inPlane q ((q + 1) * Zd35x2PlaneSizeBytes) data.length = 0 := by
        unfold inPlane
        omega
      rw [hnone, if_neg (not_lt_covered_zero _ _), cache_loadPieces_behind (Nat.le_refl _)]

/-- How many bytes of a range lie behind its first page, in the plane of it. -/
def behindFirst (address n : Nat) : Nat :=
  inPlane (address / Zd35x2PlaneSizeBytes) (address + pageRoom address) (n - pageRoom address)

/-- The cache of the plane that a range starts in, if nothing but erased bytes is behind its first page. -/
theorem cache_loadPieces {x : Nat} (hne : data ≠ []) (hbehind : ∀ b ∈ data.drop (pageRoom address), b = erased)
    (hx : x < Zd35x2PageSize) : (m.loadPieces resets (pieces address data)).cache (address / Zd35x2PlaneSizeBytes) x =
      if x < covered resets (behindFirst address data.length) then erased
      else overlay (m.base resets (address / Zd35x2PlaneSizeBytes)) (address % Zd35x2PageSize)
        (data.take (pageRoom address)) x := by
  have haligned : (address + pageRoom address) % Zd35x2PageSize = 0 := by
    unfold pageRoom
    rw [pageSize_eq]
    omega
  have hend : address + pageRoom address ≤ (address / Zd35x2PlaneSizeBytes + 1) * Zd35x2PlaneSizeBytes := by
    unfold pageRoom
    rw [pageSize_eq, planeSize_eq]
    omega
  have hstart : address / Zd35x2PlaneSizeBytes * Zd35x2PlaneSizeBytes ≤ address + pageRoom address :=
    (Nat.div_mul_le_self _ _).trans (Nat.le_add_right _ _)
  rw [pieces_of_ne_nil hne]
  refine (cache_loadPieces_erased haligned hstart hend hbehind hx).trans ?_
  rw [List.length_drop, cache_loadPiece, Function.update_self]
  rfl

end

/-! ## Writes -/

/-- The data lie in the array from `start` on, and nothing else has changed. -/
structure Written (before after : Nat → UInt8) (start : Nat) (data : List UInt8) : Prop where
  stored : ∀ k, (hk : k < data.length) → start + k < Zd35x2CapacityBytes ∧ after (start + k) = data[k]
  unchanged : ∀ i, i < start ∨ start + data.length ≤ i → after i = before i

def ErasedPages (array : Nat → UInt8) (start n : Nat) : Prop :=
  ∀ i, start / Zd35x2PageSize ≤ i / Zd35x2PageSize → i / Zd35x2PageSize ≤ (start + n - 1) / Zd35x2PageSize →
    array i = erased

/-- What a write by one execution can store, with `cache` in the plane it starts in. -/
structure OnePage (resets : Bool) (cache : Nat → UInt8) (start : Nat) (data : List UInt8) : Prop where
  /-- Behind the first page there is nothing to program. -/
  behind : ∀ k, (hk : k < data.length) → pageRoom start ≤ k → data[k] = erased
  /-- Nothing is lost in the places that the loads behind the first one reach. -/
  kept : ∀ k, (hk : k < data.length) → k < pageRoom start →
    start % Zd35x2PageSize + k < covered resets (behindFirst start data.length) → data[k] = erased
  /-- No load has left anything in the other places. -/
  fresh : resets = false → ∀ x < Zd35x2PageSize, covered resets (behindFirst start data.length) ≤ x →
    x < start % Zd35x2PageSize ∨ start % Zd35x2PageSize + data.length ≤ x → cache x = erased

section
variable {resets : Bool} {m : Memory} {start : Nat} {data : List UInt8}

/-- The array behind the loads of a range and the execution for its first page. -/
theorem array_written (i : Nat) :
    ((m.loadPieces resets (pieces start data)).programExecute (start / Zd35x2PageSize)).array i =
      if i / Zd35x2PageSize = start / Zd35x2PageSize then
        (m.loadPieces resets (pieces start data)).cache (start / Zd35x2PlaneSizeBytes) (i % Zd35x2PageSize)
      else m.array i := by
  have hplane : planeOfPage (start / Zd35x2PageSize) = start / Zd35x2PlaneSizeBytes := Nat.div_div_eq_div_mul ..
  rw [Memory.programExecute, hplane, array_loadPieces]

/-- Behind its first page a range is left as it was. -/
theorem array_written_behind {k : Nat} (hk : pageRoom start ≤ k) :
    ((m.loadPieces resets (pieces start data)).programExecute (start / Zd35x2PageSize)).array (start + k) =
      m.array (start + k) := by
  have hpage : (start + k) / Zd35x2PageSize ≠ start / Zd35x2PageSize := by
    unfold pageRoom at hk
    rw [pageSize_eq] at *
    omega
  rw [array_written, if_neg hpage]

section
variable (hne : data ≠ []) (hbehind : ∀ k, (hk : k < data.length) → pageRoom start ≤ k → data[k] = erased)
include hne hbehind

theorem cache_written {x : Nat} (hx : x < Zd35x2PageSize) :
    (m.loadPieces resets (pieces start data)).cache (start / Zd35x2PlaneSizeBytes) x =
      if x < covered resets (behindFirst start data.length) then erased
      else overlay (m.base resets (start / Zd35x2PlaneSizeBytes)) (start % Zd35x2PageSize)
        (data.take (pageRoom start)) x := by
  refine cache_loadPieces hne (fun b hb => ?_) hx
  rcases List.mem_iff_getElem.mp hb with ⟨k, hk, rfl⟩
  rw [List.getElem_drop]
  exact hbehind _ _ (Nat.le_add_right _ _)

theorem array_written_first {k : Nat} (hk : k < data.length) (hroom : k < pageRoom start) :
    ((m.loadPieces resets (pieces start data)).programExecute (start / Zd35x2PageSize)).array (start + k) =
      if start % Zd35x2PageSize + k < covered resets (behindFirst start data.length) then erased else data[k] := by
  have hpage : (start + k) / Zd35x2PageSize = start / Zd35x2PageSize ∧
      (start + k) % Zd35x2PageSize = start % Zd35x2PageSize + k := by
    unfold pageRoom at hroom
    rw [pageSize_eq] at *
    omega
  have htake : k < (data.take (pageRoom start)).length := by
    rw [List.length_take]
    omega
  rw [array_written, if_pos hpage.1, cache_written hne hbehind (Nat.mod_lt _ (by decide)), hpage.2, overlay_at htake,
    List.getElem_take]

theorem array_written_outside {i : Nat} (hpage : i / Zd35x2PageSize = start / Zd35x2PageSize)
    (hout : i < start ∨ start + data.length ≤ i) :
    ((m.loadPieces resets (pieces start data)).programExecute (start / Zd35x2PageSize)).array i =
      if i % Zd35x2PageSize < covered resets (behindFirst start data.length) then erased
      else m.base resets (start / Zd35x2PlaneSizeBytes) (i % Zd35x2PageSize) := by
  rw [array_written, if_pos hpage, cache_written hne hbehind (Nat.mod_lt _ (by decide))]
  refine if_congr Iff.rfl rfl ?_
  rcases hout with hbefore | hafter
  · exact overlay_before (by rw [pageSize_eq] at *; omega)
  · refine overlay_behind ?_
    rw [List.length_take]
    rw [pageSize_eq] at *
    omega

end

/-- On erased pages a write by one execution does what is asked exactly when the data fit it. -/
theorem written_iff (hne : data ≠ []) (hfits : start + data.length ≤ Zd35x2CapacityBytes)
    (herased : ErasedPages m.array start data.length) :
    Written m.array ((m.loadPieces resets (pieces start data)).programExecute (start / Zd35x2PageSize)).array start data ↔
      OnePage resets (m.cache (start / Zd35x2PlaneSizeBytes)) start data := by
  have hinside : ∀ k < data.length, m.array (start + k) = erased := by
    intro k hk
    refine herased _ (Nat.div_le_div_right (by omega)) (Nat.div_le_div_right (by omega))
  have hfirst : ∀ i, i / Zd35x2PageSize = start / Zd35x2PageSize → m.array i = erased := by
    intro i hi
    have hpos := List.length_pos_iff.mpr hne
    exact herased i hi.ge (hi.le.trans (Nat.div_le_div_right (by omega)))
  constructor
  · intro h
    have hbehind : ∀ k, (hk : k < data.length) → pageRoom start ≤ k → data[k] = erased := by
      intro k hk hroom
      rw [← (h.stored k hk).2, array_written_behind hroom, hinside k hk]
    refine ⟨hbehind, fun k hk hroom hcovered => ?_, fun hresets x hx hcovered hout => ?_⟩
    · rw [← (h.stored k hk).2, array_written_first hne hbehind hk hroom, if_pos hcovered]
    · have hplace : (start / Zd35x2PageSize * Zd35x2PageSize + x) / Zd35x2PageSize = start / Zd35x2PageSize ∧
          (start / Zd35x2PageSize * Zd35x2PageSize + x) % Zd35x2PageSize = x := by
        rw [pageSize_eq] at *
        omega
      have hrange : start / Zd35x2PageSize * Zd35x2PageSize + x < start ∨
          start + data.length ≤ start / Zd35x2PageSize * Zd35x2PageSize + x := by
        rw [pageSize_eq] at *
        omega
      have hkept := h.unchanged _ hrange
      rw [array_written_outside hne hbehind hplace.1 hrange, hplace.2, if_neg (Nat.not_lt.mpr hcovered),
        hfirst _ hplace.1, hresets] at hkept
      exact hkept
  · intro h
    refine ⟨fun k hk => ⟨by omega, ?_⟩, fun i hi => ?_⟩
    · by_cases hroom : k < pageRoom start
      · rw [array_written_first hne h.behind hk hroom]
        split
        · next hcovered => exact (h.kept k hk hroom hcovered).symm
        · rfl
      · rw [array_written_behind (Nat.le_of_not_lt hroom), hinside k hk]
        exact (h.behind k hk (Nat.le_of_not_lt hroom)).symm
    · by_cases hpage : i / Zd35x2PageSize = start / Zd35x2PageSize
      · rw [array_written_outside hne h.behind hpage hi, hfirst i hpage]
        split
        · rfl
        · next hcovered =>
          cases resets with
          | false => exact h.fresh rfl _ (Nat.mod_lt _ (by decide)) (Nat.le_of_not_lt hcovered)
                      (by rw [pageSize_eq] at *; omega)
          | true => rfl
      · rw [array_written, if_neg hpage]

end

end Esp32Cam.Zd35
