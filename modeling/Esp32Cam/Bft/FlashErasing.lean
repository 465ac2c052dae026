/-
  Esp32Cam.Bft.FlashErasing — which blocks a transfer erases.

  A block is erased when the write address is found in one that is not the one erased
  last: at the start of a call, whether it brings bytes or not, and before each step of
  the write loop. A step moves the address by a page at most, so no block is passed over
  on the way. Nothing looks at the address behind the last step, and nothing asks at the
  start of a call whether anything is left to write.

  So a transfer keeps to the discipline exactly when its last step begins in the block of
  the last byte (`erase_discipline_iff`): a last chunk without bytes begins behind it, and
  a step that begins inside a page may end in a block that is never erased.
-/

import Esp32Cam.Sys.EraseLog
import Esp32Cam.Bft.FlashPlan

namespace Esp32Cam.Bft.Flusher

open Esp32Cam.Lib Esp32Cam.Ut Esp32Cam.Sys

/-! ## A transfer -/

/-- How far behind the base the write address stands when `q` bytes of the file are flushed. -/
def Kind.written (k : Kind) (q : Nat) : Nat := if q = 0 then 0 else k.nHeader + q

def flushed (calls : List Call) : Nat := (calls.map (·.chunk.length)).sum

def flush (k : Kind) (memoryPartitionTable : File → Option Nat) (s : Flusher) (calls : List Call) : Option Flusher :=
  calls.foldlM (call k memoryPartitionTable) s

/-- The chunks of the file of the partition at `base`, the last one last. -/
structure Transfer (memoryPartitionTable : File → Option Nat) (base : Nat) (s : Flusher) (chunks : List Call) (last : Call) :
    Prop where
  idle : s.flushingState.ongoing = false
  partition : ∀ c ∈ chunks ++ [last], memoryPartitionTable c.file = some base
  more : ∀ c ∈ chunks, c.isLastChunk = false
  last : last.isLastChunk = true

/-- Where the last step begins that moves the write address from `address` on by `moved`, page by page. -/
def stepStart (g : FlashMemoryGeometry) (address moved : Nat) : Nat :=
  address + g.writeBlockSize * ((moved - 1) / g.writeBlockSize)

/-- Where the last step of the transfer begins: for a last chunk without bytes, the write address. -/
def lastStepStart (k : Kind) (g : FlashMemoryGeometry) (base : Nat) (chunks : List Call) (last : Call) : Nat :=
  let q := flushed chunks
  stepStart g (u32 (base + k.written q)) (k.written (q + last.chunk.length) - k.written q)

section
variable {k : Kind} {g : FlashMemoryGeometry} {base len q T a n : Nat} {log : List FlashOp}

theorem stepStart_of_le (h : n ≤ g.writeBlockSize) : stepStart g a n = a := by
  have hpos := g.writeBlockSize_pos
  unfold stepStart
  rw [Nat.div_eq_of_lt (by omega), Nat.mul_zero, Nat.add_zero]

theorem stepStart_add (h : 0 < n) : stepStart g a (g.writeBlockSize + n) = stepStart g (a + g.writeBlockSize) n := by
  have hpos := g.writeBlockSize_pos
  unfold stepStart
  rw [show g.writeBlockSize + n - 1 = n - 1 + g.writeBlockSize by omega, Nat.add_div_right _ hpos, Nat.mul_add, Nat.mul_one]
  omega

/-- The last step moves the address by a page at most. -/
theorem stepStart_lt (h : 0 < n) : stepStart g a n < a + n ∧ a + n ≤ stepStart g a n + g.writeBlockSize := by
  have hdiv := Nat.div_add_mod (n - 1) g.writeBlockSize
  have hmod := Nat.mod_lt (n - 1) g.writeBlockSize_pos
  unfold stepStart
  omega

theorem Kind.written_le (k : Kind) (q : Nat) : k.written q ≤ k.nHeader + q := by
  unfold Kind.written
  split
  · exact Nat.zero_le _
  · exact Nat.le_refl _

theorem Kind.written_add (k : Kind) (base q : Nat) (hn : 0 < n) :
    k.written (q + n) = k.written q + (k.headerAt base (base + k.written q) + n) := by
  unfold Kind.written Kind.headerAt
  by_cases hq : q = 0
  · simp [hq, hn.ne']
  · have hne : ¬ base = base + (k.nHeader + q) := by omega
    simp only [hq, if_false, hne, Nat.zero_add, if_neg (show ¬ q + n = 0 by omega)]
    omega

/-! ## The steps of a chunk -/

/-- The rule for what the pieces of a chunk do, from a base on a page boundary. -/
theorem pieces_rule {motive : Nat → Nat → List Piece → Prop} (hbase : g.writeBlockSize ∣ base)
    (hheader : k.nHeader < g.writeBlockSize)
    (single : ∀ a n, base ≤ a → 0 < n → k.headerAt base a + n ≤ g.writeBlockSize → a + k.headerAt base a + n ≤ g.size →
      motive a n [⟨a, k.headerAt base a, k.headerAt base a, n⟩])
    (cons : ∀ a n ps, base ≤ a → 0 < n → k.headerAt base a < g.writeBlockSize → a + g.writeBlockSize + n ≤ g.size →
      k.headerAt base (a + g.writeBlockSize) = 0 → motive (a + g.writeBlockSize) n ps →
      motive a (g.writeBlockSize - k.headerAt base a + n)
        (⟨a, k.headerAt base a, k.headerAt base a, g.writeBlockSize - k.headerAt base a⟩ :: ps))
    (hbehind : base ≤ a) (hn : 0 < n) (hin : a + k.headerAt base a + n ≤ g.size) : motive a n (k.pieces g base a n) := by
  induction n using Nat.strong_induction_on generalizing a with
  | _ n ih =>
    have hpos := g.writeBlockSize_pos
    have hle := k.headerAt_le base a
    have hword := g.addressable
    rw [Kind.pieces, if_neg hn.ne', piece_of_aligned hbase hheader.le]
    dsimp only
    by_cases hall : n ≤ g.writeBlockSize - k.headerAt base a
    · rw [Nat.min_eq_right hall, dif_neg hn.ne', Nat.sub_self, Kind.pieces, if_pos rfl]
      exact single a n hbehind hn (by omega) hin
    · have hnext : k.headerAt base (a + g.writeBlockSize) = 0 := k.headerAt_of_ne (by omega)
      have hword' : a + g.writeBlockSize < 4294967296 := by
        unfold FlashMemoryGeometry.size at hin
        omega
      have hsplit : n = g.writeBlockSize - k.headerAt base a + (n - (g.writeBlockSize - k.headerAt base a)) := by omega
      have hroom : ¬ g.writeBlockSize - k.headerAt base a = 0 := by omega
      rw [Nat.min_eq_left (by omega), dif_neg hroom, Piece.written, if_neg hroom]
      dsimp only
      rw [Nat.sub_add_cancel (by omega), u32_of_lt hword']
      have hrest := ih (n - (g.writeBlockSize - k.headerAt base a)) (by omega) (a := a + g.writeBlockSize) (by omega)
        (by omega) (by omega)
      generalize hm : n - (g.writeBlockSize - k.headerAt base a) = m at *
      rw [hsplit]
      exact cons a m _ hbehind (by omega) (by omega) (by omega) hnext hrest

def Piece.Settled (g : FlashMemoryGeometry) (p : Piece) : Prop :=
  p.address < g.size ∧ 0 < p.length ∧ p.pageBufferInnerOffset + p.length ≤ g.writeBlockSize

theorem Kind.layout_fits (k : Kind) (g : FlashMemoryGeometry) (base address : Nat) (hheader : k.nHeader < g.writeBlockSize) :
    let l := k.layout g base address
    0 < l.maxWriteSize ∧ l.pageBufferInnerOffset + l.maxWriteSize ≤ g.writeBlockSize ∧
      l.nHeader = k.headerAt base address := by
  have hinner : base % g.writeBlockSize < g.writeBlockSize := Nat.mod_lt _ g.writeBlockSize_pos
  have hplain : 0 < (plainLayout g base).maxWriteSize ∧
      (plainLayout g base).pageBufferInnerOffset + (plainLayout g base).maxWriteSize ≤ g.writeBlockSize := by
    simp only [plainLayout, FlashMemoryGeometry.convertAddressIntoWriteBlockInnerOffset]
    omega
  cases k with
  | flashMemory => exact ⟨hplain.1, hplain.2, (ite_self _).symm⟩
  | salute =>
    by_cases hfirst : base = address
    · have hsub : u32Sub g.writeBlockSize kFileHeaderOffset = g.writeBlockSize - kFileHeaderOffset := by
        have hlt := g.writeBlockSize_lt
        have hle : kFileHeaderOffset < g.writeBlockSize := hheader
        unfold u32Sub uint32
        omega
      have hle : kFileHeaderOffset < g.writeBlockSize := hheader
      simp only [Kind.layout, if_pos hfirst, hsub, Kind.headerAt]
      exact ⟨by omega, by omega, rfl⟩
    · simp only [Kind.layout, Kind.headerAt, if_neg hfirst]
      exact ⟨hplain.1, hplain.2, rfl⟩

/-- The pieces of a chunk lie in the device, and the write address moves behind the header and the chunk. -/
theorem pieces_spec (hheader : k.nHeader < g.writeBlockSize) (hbehind : base ≤ a) (hn : 0 < n)
    (hin : a + k.headerAt base a + n ≤ g.size) :
    (∀ p ∈ k.pieces g base a n, p.Settled g) ∧
      endAddress a (k.pieces g base a n) = u32 (a + (k.headerAt base a + n)) := by
  induction n using Nat.strong_induction_on generalizing a with
  | _ n ih =>
    obtain ⟨hroom, hfits, hkept⟩ := k.layout_fits g base a hheader
    have hword := g.addressable
    change g.size ≤ 4294967296 at hword
    rw [Kind.pieces, if_neg hn.ne']
    generalize hp : k.piece g base a n = p
    have haddress : p.address = a := by rw [← hp]; rfl
    have hlength : p.length = min (k.layout g base a).maxWriteSize n := by rw [← hp]; rfl
    have hoffset : p.pageBufferInnerOffset = (k.layout g base a).pageBufferInnerOffset := by rw [← hp]; rfl
    have hpos : 0 < p.length := by omega
    have hsettled : p.Settled g := ⟨by omega, hpos, by omega⟩
    have hwritten : p.written = p.length + k.headerAt base a := by
      rw [Piece.written, if_neg hpos.ne', ← hkept, ← hp]
      rfl
    dsimp only
    rw [dif_neg hpos.ne']
    rcases Nat.eq_zero_or_pos (n - p.length) with hzero | hrest
    · rw [Kind.pieces, if_pos hzero]
      refine ⟨fun q hq => List.mem_singleton.mp hq ▸ hsettled, ?_⟩
      simp only [endAddress, List.foldl_cons, List.foldl_nil, hwritten]
      exact congrArg u32 (by omega)
    · have hnext : u32 (a + p.written) = a + p.written := u32_of_lt (by omega)
      have hlater : k.headerAt base (a + p.written) = 0 := k.headerAt_of_ne (by omega)
      have htail := ih (n - p.length) (by omega) (a := a + p.written) (by omega) hrest (by omega)
      rw [hnext]
      refine ⟨List.forall_mem_cons.mpr ⟨hsettled, htail.1⟩, ?_⟩
      simp only [endAddress, List.foldl_cons, hnext]
      refine htail.2.trans (congrArg u32 ?_)
      omega

/-- The block of the last step is the one erased last. -/
theorem endErased_pieces (hbase : g.writeBlockSize ∣ base) (hheader : k.nHeader < g.writeBlockSize) (hbehind : base ≤ a)
    (hn : 0 < n) (hin : a + k.headerAt base a + n ≤ g.size) (last : Option Nat) :
    endErased g last (k.pieces g base a n) =
      some (g.convertAddressIntoEraseBlockOffset (stepStart g a (k.headerAt base a + n))) := by
  refine pieces_rule (motive := fun a n ps => ∀ last, endErased g last ps =
    some (g.convertAddressIntoEraseBlockOffset (stepStart g a (k.headerAt base a + n)))) hbase hheader ?_ ?_
    hbehind hn hin last
  · intro a n _ _ hroom _ last
    rw [stepStart_of_le hroom]
    rfl
  · intro a n ps _ hn hroom _ hnext hps last
    have hmoved : k.headerAt base a + (g.writeBlockSize - k.headerAt base a + n) = g.writeBlockSize + n := by omega
    rw [hmoved, stepStart_add hn]
    rw [hnext, Nat.zero_add] at hps
    exact hps _

/-! ## The erases of a chunk -/

/-- The address stands in the block erased last or in the one behind it. -/
theorem erasing_eraseOps (h : Erasing g base T log) (hle : T ≤ g.convertAddressIntoEraseBlockOffset a)
    (hle' : g.convertAddressIntoEraseBlockOffset a ≤ T + 1) :
    Erasing g base (g.convertAddressIntoEraseBlockOffset a) ((eraseOps g (some T) a).reverse ++ log) := by
  unfold eraseOps
  rcases Nat.eq_or_lt_of_le hle with heq | hlt
  · rw [← heq, if_pos rfl]
    exact h
  · have hnew : g.convertAddressIntoEraseBlockOffset a = T + 1 := by omega
    have hne : ¬ some T = some (T + 1) := by simp
    rw [hnew, if_neg hne]
    exact h.erase

theorem erasing_pieceOps {p : Piece} (h : Erasing g base (g.convertAddressIntoEraseBlockOffset p.address) log) :
    Erasing g base (g.convertAddressIntoEraseBlockOffset p.address) ((p.ops g).reverse ++ log) := by
  have hread := h.read (g.convertAddressIntoWriteBlockOffset p.address) 0 g.writeBlockSize
  have hpage := g.eraseBlockOfPage_eq p.address
  unfold Piece.ops
  split
  · exact hread
  · exact hread.write _ _ (hpage ▸ h.le) hpage.le

theorem erasing_pieces (h : Erasing g base T log) (hbase : g.writeBlockSize ∣ base) (hheader : k.nHeader < g.writeBlockSize)
    (hbehind : base ≤ a) (hn : 0 < n) (hin : a + k.headerAt base a + n ≤ g.size)
    (hle : T ≤ g.convertAddressIntoEraseBlockOffset a) (hle' : g.convertAddressIntoEraseBlockOffset a ≤ T + 1) :
    Erasing g base (g.convertAddressIntoEraseBlockOffset (stepStart g a (k.headerAt base a + n)))
      ((opsOf g (some T) (k.pieces g base a n)).reverse ++ log) := by
  refine pieces_rule (motive := fun a n ps => ∀ T log, Erasing g base T log → T ≤ g.convertAddressIntoEraseBlockOffset a →
    g.convertAddressIntoEraseBlockOffset a ≤ T + 1 →
    Erasing g base (g.convertAddressIntoEraseBlockOffset (stepStart g a (k.headerAt base a + n)))
      ((opsOf g (some T) ps).reverse ++ log)) hbase hheader ?_ ?_ hbehind hn hin T log h hle hle'
  · intro a n _ _ hroom _ T log h hle hle'
    have hpiece := erasing_pieceOps (p := ⟨a, k.headerAt base a, k.headerAt base a, n⟩) (erasing_eraseOps h hle hle')
    rw [stepStart_of_le hroom, opsOf, opsOf, List.append_nil, List.reverse_append, List.append_assoc]
    exact hpiece
  · intro a n ps _ hn hroom _ hnext hps T log h hle hle'
    have hmoved : k.headerAt base a + (g.writeBlockSize - k.headerAt base a + n) = g.writeBlockSize + n := by omega
    have hpiece := erasing_pieceOps
      (p := ⟨a, k.headerAt base a, k.headerAt base a, g.writeBlockSize - k.headerAt base a⟩) (erasing_eraseOps h hle hle')
    have hrest := hps _ _ hpiece (g.eraseBlock_mono (Nat.le_add_right a _)) (g.eraseBlock_add_page a)
    rw [hnext, Nat.zero_add] at hrest
    rw [hmoved, stepStart_add hn, opsOf, List.reverse_append, List.reverse_append, List.append_assoc, List.append_assoc]
    exact hrest

/-! ## The log between two calls -/

/-- `last` was erased last, and the write address stands at `a`. At the end of the address space
    the address is zero again: a call that brings no more bytes erases the first block there. -/
inductive Standing (g : FlashMemoryGeometry) (base len : Nat) : Option Nat → Nat → List FlashOp → Prop
  | untouched : Standing g base len none base []
  | erasing {T a : Nat} {log : List FlashOp} : Erasing g base T log → T ≤ g.convertAddressIntoEraseBlockOffset a →
      g.convertAddressIntoEraseBlockOffset a ≤ T + 1 → T * g.eraseBlockSize < 4294967296 → Standing g base len (some T) a log
  | spoiled {log : List FlashOp} : Spoiled g base len log → 0 < g.convertAddressIntoEraseBlockOffset (base + len - 1) →
      Standing g base len (some 0) 4294967296 log

variable {last : Option Nat}

theorem Standing.discipline_iff (h : Standing g base len (some T) a log) : EraseDiscipline g base len log ↔
    0 < len ∧ T = g.convertAddressIntoEraseBlockOffset (base + len - 1) := by
  cases h with
  | erasing h _ _ _ => exact h.discipline_iff
  | spoiled h hpos => exact iff_of_false (h []) fun hlast => by omega

/-- The start of a call. -/
theorem Standing.erase (h : Standing g base len last a log) (hbase : base < 4294967296) (ha : a ≤ base + len)
    (hlen : base + len ≤ 4294967296) :
    Standing g base len (some (g.convertAddressIntoEraseBlockOffset (u32 a))) a
      ((eraseOps g last (u32 a)).reverse ++ log) := by
  cases h with
  | untouched =>
    have hmul := g.eraseBlock_mul_le base
    rw [u32_of_lt hbase]
    exact .erasing (.first g base) (Nat.le_refl _) (Nat.le_succ _) (by omega)
  | erasing h hle hle' hT =>
    rename_i T
    by_cases hword : a < 4294967296
    · have hmul := g.eraseBlock_mul_le a
      rw [u32_of_lt hword]
      exact .erasing (erasing_eraseOps h hle hle') (Nat.le_refl _) (Nat.le_succ _) (by omega)
    · have hend : a = 4294967296 := by omega
      have hzero : g.convertAddressIntoEraseBlockOffset (u32 a) = 0 := by
        rw [hend]
        exact Nat.zero_div _
      by_cases hfirst : T = 0
      · subst hfirst
        rw [eraseOps, hzero, if_pos rfl]
        exact .erasing h hle hle' hT
      · -- the address is zero again, and the first block is erased behind its turn
        have hne : ¬ some T = some 0 := fun heq => hfirst (Option.some_inj.mp heq)
        have hsize : g.eraseBlockSize ≤ T * g.eraseBlockSize := Nat.le_mul_of_pos_left _ (Nat.pos_of_ne_zero hfirst)
        rw [eraseOps, hzero, if_neg hne, hend]
        refine .spoiled (h.spoiled (Nat.zero_le T) len) (Nat.div_pos ?_ g.eraseBlockSize_pos)
        omega
  | spoiled h hpos =>
    have hzero : g.convertAddressIntoEraseBlockOffset (u32 4294967296) = 0 := Nat.zero_div _
    rw [eraseOps, hzero, if_pos rfl]
    exact .spoiled h hpos

/-- The steps of a chunk. -/
theorem Standing.pieces (h : Standing g base len (some (g.convertAddressIntoEraseBlockOffset a)) a log)
    (hbase : g.writeBlockSize ∣ base) (hheader : k.nHeader < g.writeBlockSize) (hbehind : base ≤ a) (hn : 0 < n)
    (hin : a + k.headerAt base a + n ≤ g.size) :
    Standing g base len (some (g.convertAddressIntoEraseBlockOffset (stepStart g a (k.headerAt base a + n))))
      (a + (k.headerAt base a + n))
      ((opsOf g (some (g.convertAddressIntoEraseBlockOffset a)) (k.pieces g base a n)).reverse ++ log) := by
  have hword := g.addressable
  change g.size ≤ 4294967296 at hword
  generalize hlast : g.convertAddressIntoEraseBlockOffset a = T at h ⊢
  cases h with
  | erasing h hle hle' _ =>
    obtain ⟨hlt, hpage⟩ := stepStart_lt (g := g) (a := a) (n := k.headerAt base a + n) (by omega)
    have hmul := g.eraseBlock_mul_le (stepStart g a (k.headerAt base a + n))
    refine .erasing (erasing_pieces h hbase hheader hbehind hn hin hle hle') (g.eraseBlock_mono hlt.le) ?_ (by omega)
    exact (g.eraseBlock_mono hpage).trans (g.eraseBlock_add_page _)
  | spoiled _ _ => omega

/-- What follows the loop. -/
theorem Standing.closing (h : Standing g base len (some T) a log) {closing : List FlashOp} (hclosing : Closing base g closing) :
    Standing g base len (some T) a (closing.reverse ++ log) := by
  cases h with
  | erasing h hle hle' hT =>
    refine .erasing ?_ hle hle' hT
    induction closing using List.reverseRecOn with
    | nil => exact h
    | append_singleton closing op ih =>
      have hrest : Closing base g closing := by
        refine ⟨fun id hmem => hclosing.erase id (List.mem_append_left _ hmem), fun id offset length hmem => ?_⟩
        exact hclosing.write id offset length (List.mem_append_left _ hmem)
      have hop : op ∈ closing ++ [op] := List.mem_append_right _ (List.mem_singleton.mpr rfl)
      rw [List.reverse_append, List.append_assoc]
      cases op with
      | write id offset length =>
        have hid : g.eraseBlockOfPage id = g.convertAddressIntoEraseBlockOffset base := by
          rw [hclosing.write id offset length hop, g.eraseBlockOfPage_eq]
        exact (ih hrest).write offset length hid.ge (hid ▸ h.le)
      | read id offset length => exact (ih hrest).read id offset length
      | erase id => exact absurd hop (hclosing.erase id)
  | spoiled h hpos => exact .spoiled (h.append _) hpos

end

section
variable {k : Kind} {g : FlashMemoryGeometry} {base len q n : Nat} {last : Option Nat} {log : List FlashOp}

/-- The pieces of the `n` bytes behind the first `q`. -/
theorem pieces_of_written (hheader : k.nHeader < g.writeBlockSize) (hfits : base + (k.nHeader + q + n) ≤ g.size) :
    let a := u32 (base + k.written q)
    (∀ p ∈ k.pieces g base a n, p.Settled g) ∧ endAddress a (k.pieces g base a n) = u32 (base + k.written (q + n)) := by
  intro a
  have hword := g.addressable
  change g.size ≤ 4294967296 at hword
  have hle := k.written_le q
  rcases Nat.eq_zero_or_pos n with hzero | hpos
  · rw [hzero, Kind.pieces, if_pos rfl]
    exact ⟨List.forall_mem_nil _, rfl⟩
  · have hadd := k.written_add base q hpos
    have hle' := k.written_le (q + n)
    have ha : a = base + k.written q := u32_of_lt (by omega)
    rw [ha]
    obtain ⟨hsettled, haddress⟩ := pieces_spec (g := g) hheader (Nat.le_add_right base (k.written q)) hpos (by omega)
    exact ⟨hsettled, haddress.trans (congrArg u32 (by omega))⟩

/-- The blocks that the plan of `n` bytes behind the first `q` erases. -/
theorem plan_spec (h : Standing g base len last (base + k.written q) log) (hbase : g.writeBlockSize ∣ base)
    (hheader : k.nHeader < g.writeBlockSize) (hin : base < g.size) (hlen : base + len ≤ g.size)
    (hfits : k.nHeader + q + n ≤ len) :
    let a := u32 (base + k.written q)
    let block := some (g.convertAddressIntoEraseBlockOffset a)
    let ps := k.pieces g base a n
    let lastStep := stepStart g a (k.written (q + n) - k.written q)
    endErased g block ps = some (g.convertAddressIntoEraseBlockOffset lastStep) ∧
      Standing g base len (some (g.convertAddressIntoEraseBlockOffset lastStep)) (base + k.written (q + n))
        ((eraseOps g last a ++ opsOf g block ps).reverse ++ log) := by
  intro a block ps lastStep
  have hword := g.addressable
  change g.size ≤ 4294967296 at hword
  have hle := k.written_le q
  have herase := h.erase (by omega) (by omega) (by omega)
  rw [List.reverse_append, List.append_assoc]
  rcases Nat.eq_zero_or_pos n with hzero | hpos
  · have hps : ps = [] := by
      show k.pieces g base a n = []
      rw [Kind.pieces, if_pos hzero]
    have hstep : lastStep = a := by
      show stepStart g a (k.written (q + n) - k.written q) = a
      rw [hzero, Nat.add_zero, Nat.sub_self, stepStart_of_le (Nat.zero_le _)]
    rw [hps, hstep, hzero]
    exact ⟨rfl, herase⟩
  · have hadd := k.written_add base q hpos
    have hle' := k.written_le (q + n)
    have ha : a = base + k.written q := u32_of_lt (by omega)
    have hbehind : base ≤ a := ha ▸ Nat.le_add_right base _
    have hend : a + (k.headerAt base a + n) = base + k.written (q + n) := by
      rw [ha, hadd]
      omega
    have hroom : a + k.headerAt base a + n ≤ g.size := by omega
    have hstep : lastStep = stepStart g a (k.headerAt base a + n) := by
      show stepStart g a (k.written (q + n) - k.written q) = _
      rw [hadd, ← ha, Nat.add_sub_cancel_left]
    rw [hstep, ← hend]
    change Standing g base len block (base + k.written q) ((eraseOps g last a).reverse ++ log) at herase
    rw [← ha] at herase
    exact ⟨endErased_pieces hbase hheader hbehind hpos hroom block, herase.pieces hbase hheader hbehind hpos hroom⟩

end

/-! ## One call -/

/-- The state that a call of the file of the partition at `base` starts with. -/
def begun (base : Nat) (f : FlushingState) : FlushingState :=
  if f.ongoing then f else { f with baseFlashMemoryAddress := base, flashMemoryAddress := base }

theorem begun_of_ongoing {base : Nat} {f : FlushingState} (h : f.ongoing = true) : begun base f = f := if_pos h

theorem lastErased_begun (base : Nat) (f : FlushingState) : lastErased (begun base f) = lastErased f := by
  unfold begun
  split
  · rfl
  · rfl

/-- Behind `q` bytes of the file of the partition at `base`, and the operations `ops`. -/
structure Reached (k : Kind) (d : FlashMemory) (base q : Nat) (s : Flusher) (ops : List FlashOp) : Prop where
  issued : d.Issued s.flashMemory ops
  baseAddress : (begun base s.flushingState).baseFlashMemoryAddress = base
  address : (begun base s.flushingState).flashMemoryAddress = u32 (base + k.written q)

/-- The blocks erased and the pages written so far stand in the log. -/
structure Flushed (k : Kind) (d : FlashMemory) (base len q : Nat) (s : Flusher) (ops : List FlashOp) : Prop
    extends Reached k d base q s ops where
  standing : Standing d.geometry base len (lastErased s.flushingState) (base + k.written q) ops.reverse

section
variable {k : Kind} {memoryPartitionTable : File → Option Nat} {d : FlashMemory} {s : Flusher} {c : Call}
variable {base len q : Nat} {ops : List FlashOp}

theorem start_of_partition (h : memoryPartitionTable c.file = some base) :
    start memoryPartitionTable s c.file = some { s with flushingState := begun base s.flushingState } := by
  unfold start begun
  by_cases hongoing : s.flushingState.ongoing = true
  · rw [if_pos hongoing, if_pos hongoing]
  · rw [if_neg hongoing, if_neg hongoing, h]
    rfl

/-- No page of the device fails that lies inside it. -/
theorem not_stops_of_settled {g : FlashMemoryGeometry} (hd : d.FaultFree) (hg : d.geometry = g) {last : Option Nat}
    {ps : List Piece} (h : ∀ p ∈ ps, p.Settled g) : ∀ op ∈ opsOf g last ps, ∀ n, ¬ Stops d n op := by
  induction ps generalizing last with
  | nil => exact fun op hop => by cases hop
  | cons p ps ih =>
    obtain ⟨⟨haddress, hpos, hfits⟩, hrest⟩ := List.forall_mem_cons.mp h
    have hpage := g.pageStart_add_le haddress
    intro op hop n
    rw [opsOf, Piece.ops, if_neg hpos.ne'] at hop
    rcases List.mem_append.mp hop with hop | hop
    · rcases List.mem_append.mp hop with hop | hop
      · exact not_stops_eraseOps d g last p.address op hop n
      · rcases List.mem_cons.mp hop with rfl | hop
        · have hread : d.Succeeds n (p.readOp g) := by
            refine ⟨hd n, ?_⟩
            rw [hg]
            exact hpage
          exact fun hstops => hstops hread
        · obtain rfl := List.mem_singleton.mp hop
          have hwrite : d.Succeeds n (p.writeOp g) := by
            refine ⟨hd n, ?_⟩
            rw [hg, Piece.writeOp, Nat.max_eq_left (by omega)]
            exact hpage
          exact fun hstops => hstops hwrite
    · exact ih hrest op hop n

/-- A call takes its chunk, and goes on to what follows the loop. -/
theorem Reached.call (h : Reached k d base q s ops) (hd : d.FaultFree) (hheader : k.nHeader < d.geometry.writeBlockSize)
    (hfits : base + (k.nHeader + q + c.chunk.length) ≤ d.geometry.size) (hpartition : memoryPartitionTable c.file = some base) :
    let a := u32 (base + k.written q)
    let block := some (d.geometry.convertAddressIntoEraseBlockOffset a)
    let ps := k.pieces d.geometry base a c.chunk.length
    ∃ s₀ s', enter memoryPartitionTable s c = some s₀ ∧ writeChunk k s₀ c = .next s' c.isLastChunk ∧
      Reached k d base (q + c.chunk.length) s'
        (ops ++ (eraseOps d.geometry (lastErased s.flushingState) a ++ opsOf d.geometry block ps)) ∧
      s'.flushingState.ongoing = true ∧ lastErased s'.flushingState = endErased d.geometry block ps := by
  intro a block ps
  have hstart := start_of_partition (s := s) hpartition
  obtain ⟨s₀, henter⟩ : ∃ s₀, enter memoryPartitionTable s c = some s₀ := by
    unfold enter
    rw [start_fs, hstart]
    exact ⟨_, rfl⟩
  obtain ⟨s₁, hstart₁, -, -, hbase₀, haddress₀, hongoing₀, hlast₀, -⟩ := enter_spec henter
  obtain rfl := Option.some_inj.mp (hstart.symm.trans hstart₁)
  dsimp only at hbase₀ haddress₀ hlast₀
  have hg : s.geometry = d.geometry := h.issued.geometry
  rw [h.baseAddress] at hbase₀
  rw [h.address] at haddress₀ hlast₀
  obtain ⟨hsettled, haddress⟩ := pieces_of_written (n := c.chunk.length) hheader hfits
  have hlast₀' : lastErased s₀.flushingState = block := by
    rw [lastErased, if_pos hongoing₀, hlast₀, hg]
  have hops : callOps k memoryPartitionTable s c =
      eraseOps d.geometry (lastErased s.flushingState) a ++ opsOf d.geometry block ps := by
    rw [callOps, hstart]
    show planOf k s.geometry (begun base s.flushingState) c.chunk.length = _
    rw [planOf, lastErased_begun, h.baseAddress, h.address, hg]
  have hclear : ∀ n, Plan.Clear (Stops s.flashMemory) n (callOps k memoryPartitionTable s c) := by
    intro n
    refine Plan.clear_of_forall (fun op hop m => ?_) n
    rw [stops_of_issued h.issued]
    rw [hops] at hop
    rcases List.mem_append.mp hop with hop | hop
    · exact not_stops_eraseOps d d.geometry _ a op hop m
    · exact not_stops_of_settled hd rfl hsettled op hop m
  rcases writeChunk_carries_out (k := k) henter with ⟨⟨p, hp, hzero⟩, -⟩ |
      ⟨s', hissued, hongoing, ⟨-, -, hnext, hbase', haddress', hlast'⟩ | ⟨hstopped, -⟩⟩
  · rw [hbase₀, haddress₀, hg] at hp
    exact absurd hzero (hsettled p hp).2.1.ne'
  · rw [hbase₀, haddress₀, hg, haddress] at haddress'
    rw [hbase₀, haddress₀, hg, hlast₀'] at hlast'
    rw [Plan.issued_of_clear (hclear _), hops] at hissued
    refine ⟨s₀, s', henter, hnext, ⟨h.issued.trans hissued, ?_, ?_⟩, hongoing, hlast'⟩
    · rw [begun_of_ongoing hongoing, hbase', hbase₀]
    · rw [begun_of_ongoing hongoing, haddress']
  · exact absurd (hclear _) hstopped

theorem call_of_writeChunk {s₀ s' : Flusher} {isLastChunk : Bool} (henter : enter memoryPartitionTable s c = some s₀)
    (hnext : writeChunk k s₀ c = .next s' isLastChunk) :
    call k memoryPartitionTable s c = finish k.implementor s' c.file isLastChunk := by
  rw [call_eq, henter]
  simp only [hnext]

theorem Flushed.call (h : Flushed k d base len q s ops) (hd : d.FaultFree) (hbase : d.geometry.writeBlockSize ∣ base)
    (hheader : k.nHeader < d.geometry.writeBlockSize) (hin : base < d.geometry.size) (hlen : base + len ≤ d.geometry.size)
    (hfits : k.nHeader + q + c.chunk.length ≤ len) (hpartition : memoryPartitionTable c.file = some base) :
    ∃ s' ops', call k memoryPartitionTable s c = finish k.implementor s' c.file c.isLastChunk ∧
      Flushed k d base len (q + c.chunk.length) s' ops' ∧ s'.flushingState.ongoing = true ∧
      lastErased s'.flushingState = some (d.geometry.convertAddressIntoEraseBlockOffset
        (stepStart d.geometry (u32 (base + k.written q)) (k.written (q + c.chunk.length) - k.written q))) := by
  obtain ⟨s₀, s', henter, hnext, hreached, hongoing, hlast⟩ := h.toReached.call hd hheader (by omega) hpartition
  obtain ⟨hblock, hstanding⟩ := plan_spec h.standing hbase hheader hin hlen hfits
  rw [hblock] at hlast
  refine ⟨s', _, call_of_writeChunk henter hnext, ⟨hreached, ?_⟩, hongoing, hlast⟩
  rw [hlast, List.reverse_append]
  exact hstanding

/-- What follows the loop of a last chunk does not panic. -/
theorem finish_exists (hd : s.flashMemory.FaultFree) (hin : s.flushingState.baseFlashMemoryAddress < s.geometry.size)
    (hheader : k.nHeader < s.geometry.writeBlockSize) (file : File) : ∃ s', finish k.implementor s file true = some s' := by
  cases k with
  | flashMemory => exact ⟨_, rfl⟩
  | salute =>
    obtain ⟨s', hfinish, -⟩ := finish_header s file hd hin hheader.le
    exact ⟨s', hfinish⟩

end

/-! ## The whole transfer -/

section
variable {k : Kind} {memoryPartitionTable : File → Option Nat} {d : FlashMemory} {s : Flusher} {chunks : List Call}
variable {base len q : Nat} {ops : List FlashOp}

/-- The rule for the chunks but the last one: what a call does to `P` holds of them all. -/
theorem flush_chunks {P : Nat → Flusher → Prop} {Q : Nat} (hmore : ∀ c ∈ chunks, c.isLastChunk = false)
    (step : ∀ c ∈ chunks, ∀ q s, q + c.chunk.length ≤ Q → P q s →
      ∃ s', call k memoryPartitionTable s c = finish k.implementor s' c.file c.isLastChunk ∧ P (q + c.chunk.length) s')
    (hfits : q + flushed chunks ≤ Q) (h : P q s) :
    ∃ s', flush k memoryPartitionTable s chunks = some s' ∧ P (q + flushed chunks) s' := by
  induction chunks generalizing s q with
  | nil => exact ⟨s, rfl, h⟩
  | cons c chunks ih =>
    obtain ⟨hc, hmore⟩ := List.forall_mem_cons.mp hmore
    obtain ⟨hstep, hsteps⟩ := List.forall_mem_cons.mp step
    have hsum : flushed (c :: chunks) = c.chunk.length + flushed chunks := List.sum_cons
    rw [hsum, ← Nat.add_assoc] at hfits
    obtain ⟨s₁, hcall, h₁⟩ := hstep q s (by omega) h
    have hfinish : finish k.implementor s₁ c.file c.isLastChunk = some s₁ := by
      rw [hc]
      cases k with
      | flashMemory => rfl
      | salute => rfl
    obtain ⟨s₂, hrun, h₂⟩ := ih hmore hsteps hfits h₁
    rw [hsum, ← Nat.add_assoc]
    refine ⟨s₂, ?_, h₂⟩
    rw [flush, List.foldlM_cons, hcall, hfinish]
    exact hrun

theorem reached_of_idle (hidle : s.flushingState.ongoing = false) (hin : base < s.geometry.size) :
    Reached k s.flashMemory base 0 s [] := by
  have hword := s.geometry.addressable
  change s.geometry.size ≤ 4294967296 at hword
  have hbegun : begun base s.flushingState = { s.flushingState with
      baseFlashMemoryAddress := base
      flashMemoryAddress := base } := if_neg (by rw [hidle]; exact Bool.false_ne_true)
  refine ⟨.refl _, ?_, ?_⟩
  · rw [hbegun]
  · rw [hbegun]
    exact (u32_of_lt (Nat.lt_of_lt_of_le hin hword)).symm

end

/-- **Erase discipline.** On a device that does not fail, from a base on a block boundary, the blocks
    of the range written are erased once, before they are written, and no other ones, exactly when
    there is such a range and the last step of the transfer begins in the block of its last byte. -/
theorem erase_discipline_iff (k : Kind) (memoryPartitionTable : File → Option Nat) (s : Flusher) (base : Nat)
    (chunks : List Call) (last : Call) (htransfer : Transfer memoryPartitionTable base s chunks last)
    (hfaults : s.flashMemory.FaultFree) (hbase : s.geometry.eraseBlockSize ∣ base)
    (hheader : k.nHeader < s.geometry.writeBlockSize) (hin : base < s.geometry.size)
    (hfits : base + (k.nHeader + flushed (chunks ++ [last])) ≤ s.geometry.size) :
    ∃ s', flush k memoryPartitionTable s (chunks ++ [last]) = some s' ∧
      (EraseDiscipline s.geometry base (k.nHeader + flushed (chunks ++ [last]))
          (s'.flashMemory.since s.flashMemory.trace.length) ↔
        0 < k.nHeader + flushed (chunks ++ [last]) ∧
          s.geometry.convertAddressIntoEraseBlockOffset (lastStepStart k s.geometry base chunks last) =
            s.geometry.convertAddressIntoEraseBlockOffset (base + (k.nHeader + flushed (chunks ++ [last])) - 1)) := by
  obtain ⟨hidle, hpartition, hmore, hlast⟩ := htransfer
  have hpages := s.geometry.dvd_of_erase_dvd hbase
  have hsum : flushed (chunks ++ [last]) = flushed chunks + last.chunk.length := by simp [flushed]
  generalize hlen : k.nHeader + flushed (chunks ++ [last]) = len at *
  have hstart : ∃ ops, Flushed k s.flashMemory base len 0 s ops := by
    refine ⟨[], reached_of_idle hidle hin, ?_⟩
    rw [lastErased, hidle]
    exact .untouched
  have hchunks : ∃ s₁, flush k memoryPartitionTable s chunks = some s₁ ∧
      ∃ ops, Flushed k s.flashMemory base len (0 + flushed chunks) s₁ ops := by
    refine flush_chunks (P := fun q s₁ => ∃ ops, Flushed k s.flashMemory base len q s₁ ops) (Q := len - k.nHeader) hmore
      ?_ (by omega) hstart
    intro c hc q s₁ hq hflushed
    obtain ⟨ops, h⟩ := hflushed
    obtain ⟨s₂, ops₂, hcall, h₂, -, -⟩ := h.call hfaults hpages hheader hin hfits (by omega)
      (hpartition c (List.mem_append_left _ hc))
    exact ⟨s₂, hcall, ops₂, h₂⟩
  obtain ⟨s₁, hrun, ops₁, h₁⟩ := hchunks
  rw [Nat.zero_add] at h₁
  obtain ⟨s₂, ops₂, hcall, h₂, hongoing, hlast₂⟩ := h₁.call hfaults hpages hheader hin hfits (by omega)
    (hpartition last (List.mem_append_right _ (List.mem_singleton.mpr rfl)))
  rw [hlast] at hcall
  have hbase₂ : s₂.flushingState.baseFlashMemoryAddress = base := by
    have hbase₂ := h₂.baseAddress
    rwa [begun_of_ongoing hongoing] at hbase₂
  have hg₂ : s₂.geometry = s.geometry := h₂.issued.geometry
  obtain ⟨s₃, hfinish⟩ := finish_exists (k := k) (s := s₂) (fun n => by rw [h₂.issued.faults]; exact hfaults n)
    (by rw [hbase₂, hg₂]; exact hin) (by rw [hg₂]; exact hheader) last.file
  obtain ⟨closing, hissued, hclosing, -⟩ := finish_spec hfinish
  rw [hbase₂, hg₂] at hclosing
  have hstanding := h₂.standing
  rw [hlast₂] at hstanding
  refine ⟨s₃, ?_, ?_⟩
  · rw [flush, List.foldlM_append]
    change (flush k memoryPartitionTable s chunks).bind _ = _
    rw [hrun]
    show (call k memoryPartitionTable s₁ last).bind some = _
    rw [hcall, hfinish]
    rfl
  · rw [(h₂.issued.trans hissued).since, List.reverse_append]
    exact (hstanding.closing hclosing).discipline_iff

/-- A first chunk up to the end of a page and two bytes behind it keep to the discipline. -/
theorem erase_discipline_of_four_and_two : ∃ s', flush .salute saluteFlashMemoryPartitionTable smallFlusher
      [showCall [1, 2, 3, 4] false (by decide), showCall [5, 6] true (by decide)] = some s' ∧
    EraseDiscipline smallFlusher.geometry 0 10 (s'.flashMemory.since 0) := by
  obtain ⟨s', hrun, hdiscipline⟩ := erase_discipline_iff .salute saluteFlashMemoryPartitionTable smallFlusher 0
    [showCall [1, 2, 3, 4] false (by decide)] (showCall [5, 6] true (by decide))
    ⟨rfl, by decide +kernel, by decide, rfl⟩ (fun _ => rfl) (by decide) (by decide) (by decide) (by decide)
  exact ⟨s', hrun, hdiscipline.mpr (by decide)⟩

/-- Twelve bytes end where a block of sixteen does: an empty last chunk erases the block behind it. -/
theorem an_empty_last_chunk_erases_the_block_behind : ∃ s', flush .salute saluteFlashMemoryPartitionTable smallFlusher
      [showCall [1, 2, 3, 4, 5, 6, 7, 8, 9, 10, 11, 12] false (by decide), showCall [] true (by decide)] = some s' ∧
    ¬ EraseDiscipline smallFlusher.geometry 0 (4 + 12) (s'.flashMemory.since 0) := by
  have hlog : (flush .salute saluteFlashMemoryPartitionTable smallFlusher
      [showCall [1, 2, 3, 4, 5, 6, 7, 8, 9, 10, 11, 12] false (by decide), showCall [] true (by decide)]).map
        (fun s' => decide (.erase 1 ∈ s'.flashMemory.since 0)) = some true := by decide +kernel
  obtain ⟨s', hrun, herased⟩ := Option.map_eq_some_iff.mp hlog
  refine ⟨s', hrun, fun hdiscipline => ?_⟩
  exact hdiscipline.outside 1 (by decide) (of_decide_eq_true herased)

end Esp32Cam.Bft.Flusher
