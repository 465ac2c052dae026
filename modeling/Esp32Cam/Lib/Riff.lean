/-
  Esp32Cam.Lib.Riff — chunks of tagged bytes, nested in lists.

  A chunk is a tag of four characters, the number of its bytes in four, and the bytes; a
  byte of any value follows an odd number of them. The bytes of a list (tags `RIFF` and
  `LIST`) are a kind of four characters and chunks again.

  `Reads bytes chunks`: the bytes are these chunks one behind the other, to the last byte.
  `decode` reads them back (`Reads.decode`), so that the bytes settle the chunks
  (`Reads.unique`). Chunks behind chunks are chunks (`Reads.append`), and never an odd
  number of bytes (`Reads.even`).
-/

import Esp32Cam.Lib.Word

namespace Esp32Cam.Lib.Riff

structure FourCc where
  a : UInt8
  b : UInt8
  c : UInt8
  d : UInt8
  deriving DecidableEq, Repr

def FourCc.ofChars (a b c d : Char) : FourCc := ⟨a.toUInt8, b.toUInt8, c.toUInt8, d.toUInt8⟩

def FourCc.bytes (t : FourCc) : List UInt8 := [t.a, t.b, t.c, t.d]

@[simp] theorem FourCc.length_bytes (t : FourCc) : t.bytes.length = 4 := rfl

def riff : FourCc := .ofChars 'R' 'I' 'F' 'F'
def list : FourCc := .ofChars 'L' 'I' 'S' 'T'

def FourCc.isList (t : FourCc) : Bool := t = riff || t = list

inductive Chunk where
  | data (tag : FourCc) (body : List UInt8)
  | list (tag kind : FourCc) (chunks : List Chunk)
  deriving Repr

/-! ## What the bytes are -/

inductive Reads : List UInt8 → List Chunk → Prop
  | nil : Reads [] []
  | data {tag : FourCc} {body pad rest : List UInt8} {chunks : List Chunk} : tag.isList = false →
      body.length < 2 ^ 32 → pad.length = body.length % 2 → Reads rest chunks →
      Reads (tag.bytes ++ (le32 body.length ++ (body ++ (pad ++ rest)))) (.data tag body :: chunks)
  | list {tag kind : FourCc} {body pad rest : List UInt8} {inner chunks : List Chunk} : tag.isList = true →
      4 + body.length < 2 ^ 32 → pad.length = body.length % 2 → Reads body inner → Reads rest chunks →
      Reads (tag.bytes ++ (le32 (4 + body.length) ++ (kind.bytes ++ body ++ (pad ++ rest))))
        (.list tag kind inner :: chunks)

section
variable {xs ys : List UInt8} {cs ds : List Chunk}

theorem Reads.append (h : Reads xs cs) (h' : Reads ys ds) : Reads (xs ++ ys) (cs ++ ds) := by
  induction h with
  | nil => exact h'
  | data htag hlength hpad _ ih =>
    simp only [List.append_assoc]
    exact .data htag hlength hpad ih
  | list htag hlength hpad hbody _ _ ih =>
    simpa only [List.append_assoc, List.cons_append] using Reads.list htag hlength hpad hbody ih

/-- One chunk. -/
theorem reads_data (tag : FourCc) (body pad : List UInt8) (htag : tag.isList = false) (hlength : body.length < 2 ^ 32)
    (hpad : pad.length = body.length % 2) :
    Reads (tag.bytes ++ (le32 body.length ++ (body ++ pad))) [.data tag body] := by
  have hreads := Reads.data htag hlength hpad .nil
  rwa [List.append_nil] at hreads

theorem reads_data_of_even (tag : FourCc) (body : List UInt8) (htag : tag.isList = false) (hlength : body.length < 2 ^ 32)
    (heven : body.length % 2 = 0) : Reads (tag.bytes ++ (le32 body.length ++ body)) [.data tag body] := by
  have hreads := reads_data tag body [] htag hlength heven.symm
  rwa [List.append_nil] at hreads

theorem Reads.even (h : Reads xs cs) : xs.length % 2 = 0 := by
  induction h with
  | nil => rfl
  | data _ _ hpad _ ih =>
    simp only [List.length_append, FourCc.length_bytes, hpad, le32, List.length_cons, List.length_nil]
    omega
  | list _ _ hpad _ _ _ ih =>
    simp only [List.length_append, FourCc.length_bytes, hpad, le32, List.length_cons, List.length_nil]
    omega

/-- One list. -/
theorem Reads.list_of (tag kind : FourCc) (h : Reads xs cs) (htag : tag.isList = true)
    (hlength : 4 + xs.length < 2 ^ 32) :
    Reads (tag.bytes ++ (le32 (4 + xs.length) ++ (kind.bytes ++ xs))) [.list tag kind cs] := by
  have hreads := @Reads.list tag kind xs [] [] cs [] htag hlength h.even.symm h .nil
  rwa [List.append_nil, List.append_nil] at hreads

end

/-! ## Reading them back -/

def header : List UInt8 → Option (FourCc × Nat × List UInt8)
  | a :: b :: c :: d :: e :: f :: g :: h :: rest => some (⟨a, b, c, d⟩, ofBytes true [e, f, g, h], rest)
  | _ => none

def kind : List UInt8 → Option (FourCc × List UInt8)
  | a :: b :: c :: d :: rest => some (⟨a, b, c, d⟩, rest)
  | _ => none

/-- The fuel runs out with the bytes, eight of which every chunk takes. -/
def decodeFuel : Nat → List UInt8 → Option (List Chunk)
  | 0, bytes => if bytes = [] then some [] else none
  | fuel + 1, bytes =>
    if bytes = [] then some []
    else (header bytes).bind fun (tag, size, rest) =>
      if rest.length < size + size % 2 then none
      else
        let chunk :=
          if tag.isList then
            (kind (rest.take size)).bind fun (kind, body) => (decodeFuel fuel body).map (Chunk.list tag kind)
          else some (Chunk.data tag (rest.take size))
        chunk.bind fun chunk => (decodeFuel fuel (rest.drop (size + size % 2))).map (chunk :: ·)

def decode (bytes : List UInt8) : Option (List Chunk) := decodeFuel bytes.length bytes

section
variable {xs : List UInt8} {cs ds : List Chunk}

theorem header_append (tag : FourCc) {n : Nat} (h : n < 2 ^ 32) (rest : List UInt8) :
    header (tag.bytes ++ (le32 n ++ rest)) = some (tag, n, rest) := by
  show some (tag, ofBytes true (le32 n), rest) = _
  rw [ofBytes_le32 h]

theorem kind_append (t : FourCc) (rest : List UInt8) : kind (t.bytes ++ rest) = some (t, rest) := rfl

/-- What is made of the bytes behind the tag and the number. -/
theorem decodeFuel_append (fuel : Nat) (tag : FourCc) {size : Nat} {rest : List UInt8} (h : size < 2 ^ 32)
    (hroom : size + size % 2 ≤ rest.length) :
    decodeFuel (fuel + 1) (tag.bytes ++ (le32 size ++ rest)) =
      (if tag.isList then
        (kind (rest.take size)).bind fun (kind, body) => (decodeFuel fuel body).map (Chunk.list tag kind)
      else some (Chunk.data tag (rest.take size))).bind fun chunk =>
        (decodeFuel fuel (rest.drop (size + size % 2))).map (chunk :: ·) := by
  have hne : tag.bytes ++ (le32 size ++ rest) ≠ [] := List.cons_ne_nil _ _
  rw [decodeFuel, if_neg hne, header_append tag h, Option.bind_some]
  dsimp only
  rw [if_neg (Nat.not_lt.mpr hroom)]

theorem Reads.decodeFuel (h : Reads xs cs) {fuel : Nat} (hfuel : xs.length ≤ fuel) : decodeFuel fuel xs = some cs := by
  induction h generalizing fuel with
  | nil => cases fuel <;> rfl
  | @data tag body pad rest chunks htag hlength hpad _ ih =>
    simp only [List.length_append, FourCc.length_bytes] at hfuel
    obtain ⟨fuel, rfl⟩ : ∃ n, fuel = n + 1 := ⟨fuel - 1, by omega⟩
    have hroom : body.length + body.length % 2 ≤ (body ++ (pad ++ rest)).length := by
      simp only [List.length_append, hpad]
      omega
    have hbody : (body ++ (pad ++ rest)).take body.length = body := List.take_left
    have hrest : (body ++ (pad ++ rest)).drop (body.length + body.length % 2) = rest := by
      rw [← List.append_assoc, ← hpad, ← List.length_append, List.drop_left]
    rw [decodeFuel_append fuel tag hlength hroom, htag, hbody, hrest, ih (by omega)]
    rfl
  | @list tag kind body pad rest inner chunks htag hlength hpad _ _ ihbody ih =>
    simp only [List.length_append, FourCc.length_bytes] at hfuel
    obtain ⟨fuel, rfl⟩ : ∃ n, fuel = n + 1 := ⟨fuel - 1, by omega⟩
    have hsize : (kind.bytes ++ body).length = 4 + body.length := by rw [List.length_append, FourCc.length_bytes]
    have hparity : (4 + body.length) % 2 = pad.length := by omega
    have hroom : 4 + body.length + (4 + body.length) % 2 ≤ (kind.bytes ++ body ++ (pad ++ rest)).length := by
      rw [List.length_append, hsize, List.length_append, hparity]
      omega
    have hbody : (kind.bytes ++ body ++ (pad ++ rest)).take (4 + body.length) = kind.bytes ++ body := by
      rw [← hsize, List.take_left]
    have hrest : (kind.bytes ++ body ++ (pad ++ rest)).drop (4 + body.length + (4 + body.length) % 2) = rest := by
      rw [hparity, ← hsize, ← List.append_assoc, ← List.length_append, List.drop_left]
    rw [decodeFuel_append fuel tag hlength hroom, htag, if_pos rfl, hbody, hrest, kind_append, Option.bind_some]
    dsimp only
    rw [ihbody (by omega), ih (by omega)]
    rfl

theorem Reads.decode (h : Reads xs cs) : decode xs = some cs := h.decodeFuel (Nat.le_refl _)

theorem Reads.unique (h : Reads xs cs) (h' : Reads xs ds) : cs = ds := Option.some_inj.mp (h.decode.symm.trans h'.decode)

end

end Esp32Cam.Lib.Riff
