/-
  Esp32Cam.Ver.VersionParser — the parser that seeks the version of the STM32 in what the UART reads.

  A package is `fwv`, a size byte, as many bytes of payload, and `FWV`. The parser takes one
  byte at a time; at a byte that does not fit it starts afresh with that same byte. How the
  bytes are cut into `parse` calls does not matter (`parse_flatten`). `Follows` says for each
  state which bytes the stream ends with that far, so a parser that has `parsed` has read a
  whole package and holds the payload of that one (`parsed_holds_a_package`).

  The state `atEnd` is entered by the byte behind the last one of the package. A package with
  nothing behind it is never reported (`package_without_a_byte_behind`), and any further
  byte completes it (`any_byte_behind_completes`).
-/

import Mathlib.Data.List.Infix

namespace Esp32Cam.Ver

/-- `fwv` -/
def framePrefix : List UInt8 := [0x66, 0x77, 0x76]

/-- `FWV` -/
def framePostfix : List UInt8 := [0x46, 0x57, 0x56]

inductive StateId where
  | atStart
  | inPrefix
  | atSize
  | inPayload
  | inPostfix
  | atEnd
  deriving DecidableEq, Repr

structure VersionParser where
  id : StateId := .atStart
  /-- Current position or number of bytes left. -/
  info : Nat := 0
  pl : List UInt8 := []
  deriving DecidableEq, Repr

namespace VersionParser

def reset (_ : VersionParser) : VersionParser := {}

def parsed (p : VersionParser) : Bool := p.id = .atEnd

def payload (p : VersionParser) : List UInt8 := p.pl

/-! ## One byte -/

def iterStart (p : VersionParser) (byte : UInt8) : VersionParser :=
  if framePrefix[0]? = some byte then { p with id := .inPrefix, info := 1 } else p

def iterSize (p : VersionParser) (byte : UInt8) : VersionParser :=
  { p with info := byte.toNat, id := .inPayload }

/-- The cases that call `iter` again do so in the states `atStart` and `atSize`, whose own cases do not. -/
def iter (p : VersionParser) (byte : UInt8) : VersionParser :=
  match p.id with
  | .atStart => p.iterStart byte
  | .inPrefix =>
    if p.info < framePrefix.length then
      if framePrefix[p.info]? = some byte then { p with info := p.info + 1 } else p.reset.iterStart byte
    else iterSize { p with id := .atSize } byte
  | .atSize => p.iterSize byte
  | .inPayload =>
    if 0 < p.info then { p with info := p.info - 1, pl := p.pl ++ [byte] }
    else if framePostfix[0]? = some byte then { p with id := .inPostfix, info := 1 }
    else p.reset.iterStart byte
  | .inPostfix =>
    if p.info < framePostfix.length then
      if framePostfix[p.info]? = some byte then { p with info := p.info + 1 } else p.reset.iterStart byte
    else { p with id := .atEnd }
  | .atEnd => p

/-! ## A call, and the calls in turn -/

def parse : VersionParser → List UInt8 → VersionParser
  | p, [] => p
  | p, byte :: data => if p.parsed then p else (p.iter byte).parse data

def consumed : VersionParser → List UInt8 → List UInt8
  | _, [] => []
  | p, byte :: data => if p.parsed then [] else byte :: (p.iter byte).consumed data

def consumedIn : VersionParser → List (List UInt8) → List UInt8
  | _, [] => []
  | p, chunk :: chunks => p.consumed chunk ++ (p.parse chunk).consumedIn chunks

theorem parse_of_parsed {p : VersionParser} (h : p.parsed = true) (data : List UInt8) : p.parse data = p := by
  cases data with
  | nil => rfl
  | cons byte data => rw [parse, if_pos h]

theorem parse_append (p : VersionParser) (a b : List UInt8) : p.parse (a ++ b) = (p.parse a).parse b := by
  induction a generalizing p with
  | nil => rfl
  | cons byte a ih =>
    rw [List.cons_append, parse, parse]
    split
    · rename_i h
      exact (parse_of_parsed h b).symm
    · exact ih (p.iter byte)

theorem parse_flatten (p : VersionParser) (chunks : List (List UInt8)) : chunks.foldl parse p = p.parse chunks.flatten := by
  induction chunks generalizing p with
  | nil => rfl
  | cons chunk chunks ih => rw [List.foldl_cons, ih, List.flatten_cons, parse_append]

theorem consumed_of_parsed {p : VersionParser} (h : p.parsed = true) (data : List UInt8) : p.consumed data = [] := by
  cases data with
  | nil => rfl
  | cons byte data => rw [consumed, if_pos h]

theorem consumed_append (p : VersionParser) (a b : List UInt8) :
    p.consumed (a ++ b) = p.consumed a ++ (p.parse a).consumed b := by
  induction a generalizing p with
  | nil => rfl
  | cons byte a ih =>
    rw [List.cons_append, consumed, consumed, parse]
    split
    · rename_i h
      rw [consumed_of_parsed h, List.append_nil]
    · rw [ih, List.cons_append]

theorem consumedIn_eq (p : VersionParser) (chunks : List (List UInt8)) : p.consumedIn chunks = p.consumed chunks.flatten := by
  induction chunks generalizing p with
  | nil => rfl
  | cons chunk chunks ih => rw [consumedIn, ih, List.flatten_cons, consumed_append]

/-! ## What a state says of the bytes so far -/

/-- The stream read so far ends with the part of the package that the state stands for. -/
def Follows (p : VersionParser) (stream : List UInt8) : Prop :=
  match p.id with
  | .atStart => p.pl = []
  | .inPrefix => p.pl = [] ∧ framePrefix.take p.info <:+ stream
  | .atSize => p.pl = [] ∧ framePrefix <:+ stream
  | .inPayload => ∃ n : UInt8, p.pl.length + p.info = n.toNat ∧ framePrefix ++ n :: p.pl <:+ stream
  | .inPostfix => ∃ n : UInt8, p.pl.length = n.toNat ∧ framePrefix ++ n :: p.pl ++ framePostfix.take p.info <:+ stream
  | .atEnd => ∃ n : UInt8, p.pl.length = n.toNat ∧ framePrefix ++ n :: p.pl ++ framePostfix <:+: stream

/-- A suffix grows by the byte that is read. -/
theorem suffix_concat {a stream : List UInt8} (h : a <:+ stream) (byte : UInt8) : a ++ [byte] <:+ stream ++ [byte] := by
  rcases h with ⟨before, rfl⟩
  exact ⟨before, (List.append_assoc before a [byte]).symm⟩

theorem take_concat {marker : List UInt8} {i : Nat} {byte : UInt8} (h : marker[i]? = some byte) :
    marker.take (i + 1) = marker.take i ++ [byte] := by
  rw [List.take_add_one, h, Option.toList_some]

theorem follows_iterStart {p : VersionParser} (hid : p.id = .atStart) (hpl : p.pl = []) (stream : List UInt8) (byte : UInt8) :
    (p.iterStart byte).Follows (stream ++ [byte]) := by
  unfold iterStart
  split
  · rename_i hbyte
    exact ⟨hpl, by rw [take_concat hbyte]; exact List.suffix_append stream [byte]⟩
  · rw [Follows, hid]
    exact hpl

/-- Starting afresh says nothing of the bytes before. -/
theorem follows_restart (p : VersionParser) (stream : List UInt8) (byte : UInt8) :
    (p.reset.iterStart byte).Follows (stream ++ [byte]) :=
  follows_iterStart rfl rfl stream byte

theorem follows_iterSize {p : VersionParser} (hpl : p.pl = []) {stream : List UInt8} (h : framePrefix <:+ stream) (byte : UInt8) :
    (p.iterSize byte).Follows (stream ++ [byte]) := by
  refine ⟨byte, ?_, ?_⟩
  · rw [iterSize, hpl, List.length_nil, Nat.zero_add]
  · rw [iterSize, hpl]
    exact suffix_concat h byte

theorem follows_iter {p : VersionParser} {stream : List UInt8} (h : p.Follows stream) (byte : UInt8) :
    (p.iter byte).Follows (stream ++ [byte]) := by
  rw [Follows] at h
  unfold iter
  cases hid : p.id with
  | atStart =>
    rw [hid] at h
    exact follows_iterStart hid h stream byte
  | inPrefix =>
    rw [hid] at h
    rcases h with ⟨hpl, hs⟩
    dsimp only
    split
    · split
      · rename_i hbyte
        simp only [Follows]
        exact ⟨hpl, by rw [take_concat hbyte]; exact suffix_concat hs byte⟩
      · exact follows_restart p stream byte
    · rename_i hinfo
      rw [List.take_of_length_le (Nat.le_of_not_lt hinfo)] at hs
      exact follows_iterSize hpl hs byte
  | atSize =>
    rw [hid] at h
    exact follows_iterSize h.1 h.2 byte
  | inPayload =>
    rw [hid] at h
    rcases h with ⟨n, hn, hs⟩
    dsimp only
    split
    · rename_i hinfo
      simp only [Follows]
      refine ⟨n, ?_, ?_⟩
      · rw [List.length_append, List.length_singleton]
        omega
      · have h := suffix_concat hs byte
        rwa [List.append_assoc, List.cons_append] at h
    · split
      · rename_i hinfo hbyte
        have hinfo : p.info = 0 := Nat.eq_zero_of_not_pos hinfo
        rw [hinfo, Nat.add_zero] at hn
        refine ⟨n, hn, ?_⟩
        rw [take_concat hbyte]
        exact suffix_concat hs byte
      · exact follows_restart p stream byte
  | inPostfix =>
    rw [hid] at h
    rcases h with ⟨n, hn, hs⟩
    dsimp only
    split
    · split
      · rename_i hbyte
        simp only [Follows]
        refine ⟨n, hn, ?_⟩
        have h := suffix_concat hs byte
        rwa [List.append_assoc, ← take_concat hbyte] at h
      · exact follows_restart p stream byte
    · rename_i hinfo
      rw [List.take_of_length_le (Nat.le_of_not_lt hinfo)] at hs
      exact ⟨n, hn, hs.isInfix.trans (List.prefix_append stream [byte]).isInfix⟩
  | atEnd =>
    rw [hid] at h
    rcases h with ⟨n, hn, hs⟩
    dsimp only
    rw [Follows, hid]
    exact ⟨n, hn, hs.trans (List.prefix_append stream [byte]).isInfix⟩

theorem follows_parse {p : VersionParser} {stream : List UInt8} (h : p.Follows stream) (data : List UInt8) :
    (p.parse data).Follows (stream ++ p.consumed data) := by
  induction data generalizing p stream with
  | nil => rwa [consumed, List.append_nil]
  | cons byte data ih =>
    rw [parse, consumed]
    split
    · rwa [List.append_nil]
    · have h := ih (follows_iter h byte)
      rwa [List.append_assoc] at h

theorem follows_fresh (data : List UInt8) : (parse {} data).Follows (consumed {} data) :=
  follows_parse (show Follows {} [] from rfl) data

/-- However the bytes are cut into calls, the state is that of one call, and behind a package
the payload is the one that stands in it. -/
theorem parsed_holds_a_package (chunks : List (List UInt8)) :
    (∀ p : VersionParser, chunks.foldl parse p = p.parse chunks.flatten) ∧
      ((chunks.foldl parse {}).parsed = true →
        ∃ n : UInt8, (chunks.foldl parse {}).payload.length = n.toNat ∧
          framePrefix ++ n :: (chunks.foldl parse {}).payload ++ framePostfix <:+: consumedIn {} chunks) := by
  refine ⟨fun p => parse_flatten p chunks, fun h => ?_⟩
  rw [parse_flatten] at h
  rw [parse_flatten, consumedIn_eq]
  have hfollows := follows_fresh chunks.flatten
  rw [Follows, of_decide_eq_true h] at hfollows
  exact hfollows

/-- A package behind a failed one, cut in three. -/
theorem parsed_holds_the_second_package :
    ([[0x66, 0x77, 0x76, 0x01, 0x31, 0x46, 0x66], [0x77, 0x76, 0x01, 0x32, 0x46], [0x57, 0x56, 0x0a]].foldl parse {}).parsed =
        true ∧
      ∃ n : UInt8, ([0x32] : List UInt8).length = n.toNat ∧ framePrefix ++ n :: [0x32] ++ framePostfix <:+:
        consumedIn {} [[0x66, 0x77, 0x76, 0x01, 0x31, 0x46, 0x66], [0x77, 0x76, 0x01, 0x32, 0x46], [0x57, 0x56, 0x0a]] :=
  ⟨by decide, (parsed_holds_a_package
    [[0x66, 0x77, 0x76, 0x01, 0x31, 0x46, 0x66], [0x77, 0x76, 0x01, 0x32, 0x46], [0x57, 0x56, 0x0a]]).2 (by decide)⟩

/-! ## A package, byte by byte -/

/-- The bytes of a package; its payload is at most 255 bytes. -/
def package (payload : List UInt8) : List UInt8 :=
  framePrefix ++ UInt8.ofNat payload.length :: payload ++ framePostfix

theorem consumed_isPrefix (p : VersionParser) (data : List UInt8) : p.consumed data <+: data := by
  induction data generalizing p with
  | nil => exact List.prefix_rfl
  | cons byte data ih =>
    rw [consumed]
    split
    · exact List.nil_prefix
    · exact (List.prefix_cons_inj byte).mpr (ih (p.iter byte))

/-- In bytes without `fwv` the parser gets to its second letter at most. -/
theorem before_package {g : List UInt8} (hg : ¬ framePrefix <:+: g) :
    (parse {} g).pl = [] ∧
      ((parse {} g).id = .atStart ∨ (parse {} g).id = .inPrefix ∧ (parse {} g).info < framePrefix.length) := by
  have hfollows := follows_fresh g
  have hg : ¬ framePrefix <:+: consumed {} g := fun h => hg (h.trans (consumed_isPrefix {} g).isInfix)
  -- every other state says that a whole `fwv` was read
  have hopen : ∀ {rest : List UInt8}, ¬ framePrefix ++ rest <:+: consumed {} g := fun h =>
    hg ((List.prefix_append framePrefix _).isInfix.trans h)
  rw [Follows] at hfollows
  cases hid : (parse {} g).id with
  | atStart =>
    rw [hid] at hfollows
    exact ⟨hfollows, .inl rfl⟩
  | inPrefix =>
    rw [hid] at hfollows
    refine ⟨hfollows.1, .inr ⟨rfl, Nat.lt_of_not_le fun hinfo => hg ?_⟩⟩
    have h := hfollows.2.isInfix
    rwa [List.take_of_length_le hinfo] at h
  | atSize =>
    rw [hid] at hfollows
    exact absurd hfollows.2.isInfix hg
  | inPayload =>
    rw [hid] at hfollows
    rcases hfollows with ⟨n, -, h⟩
    exact absurd h.isInfix hopen
  | inPostfix =>
    rw [hid] at hfollows
    rcases hfollows with ⟨n, -, h⟩
    rw [List.append_assoc] at h
    exact absurd h.isInfix hopen
  | atEnd =>
    rw [hid] at hfollows
    rcases hfollows with ⟨n, -, h⟩
    rw [List.append_assoc] at h
    exact absurd h hopen

/-- Wherever the bytes before it left the parser, `fwv` is read. -/
theorem parse_prefix {p : VersionParser} (hpl : p.pl = [])
    (hid : p.id = .atStart ∨ p.id = .inPrefix ∧ p.info < framePrefix.length) :
    p.parse framePrefix = { id := .inPrefix, info := 3, pl := [] } := by
  have hfirst : p.parsed = false ∧ p.iter 0x66 = { id := .inPrefix, info := 1, pl := [] } := by
    rcases p with ⟨id, info, pl⟩
    rcases hpl with rfl
    rcases hid with rfl | ⟨rfl, hinfo⟩
    · exact ⟨rfl, rfl⟩
    · -- at the second and at the third letter the `f` starts the parser afresh
      rcases info with _ | _ | _ | info
      · exact ⟨rfl, rfl⟩
      · exact ⟨rfl, rfl⟩
      · exact ⟨rfl, rfl⟩
      · exact absurd hinfo (Nat.not_lt_of_le (Nat.le_add_left 3 info))
  rw [framePrefix, parse, hfirst.1, hfirst.2]
  rfl

theorem parse_payload (payload pl : List UInt8) :
    parse { id := .inPayload, info := payload.length, pl := pl } payload =
      { id := .inPayload, info := 0, pl := pl ++ payload } := by
  induction payload generalizing pl with
  | nil => rw [List.append_nil]; rfl
  | cons byte payload ih =>
    have hiter : iter { id := .inPayload, info := (byte :: payload).length, pl := pl } byte =
        { id := .inPayload, info := payload.length, pl := pl ++ [byte] } := rfl
    have hopen : parsed { id := .inPayload, info := (byte :: payload).length, pl := pl } = false := rfl
    rw [parse, hopen, hiter, if_neg Bool.false_ne_true, ih, List.append_assoc, List.singleton_append]

/-- The whole package is read, and the parser waits behind its last byte. -/
theorem parse_package {g : List UInt8} (hg : ¬ framePrefix <:+: g) {payload : List UInt8} (hpayload : payload.length ≤ 255) :
    parse {} (g ++ package payload) = { id := .inPostfix, info := 3, pl := payload } := by
  have hbefore := before_package hg
  have hsize : (UInt8.ofNat payload.length).toNat = payload.length := UInt8.toNat_ofNat_of_lt' (Nat.lt_succ_of_le hpayload)
  have hiter : iter { id := .inPrefix, info := 3, pl := [] } (UInt8.ofNat payload.length) =
      { id := .inPayload, info := payload.length, pl := [] } := congrArg (VersionParser.mk .inPayload · []) hsize
  have hopen : parsed { id := .inPrefix, info := 3, pl := [] } = false := rfl
  rw [package, parse_append, List.append_assoc, parse_append, parse_prefix hbefore.1 hbefore.2, List.cons_append, parse, hopen,
    if_neg Bool.false_ne_true, hiter, parse_append, parse_payload]
  rfl

/-- A package with no byte behind it is read to its last byte, and not reported. -/
theorem package_without_a_byte_behind {g : List UInt8} (hg : ¬ framePrefix <:+: g) {payload : List UInt8}
    (hpayload : payload.length ≤ 255) :
    (parse {} (g ++ package payload)).parsed = false ∧ (parse {} (g ++ package payload)).payload = payload := by
  rw [parse_package hg hpayload]
  exact ⟨rfl, rfl⟩

/-- Bytes that are no package, then a package of two bytes. -/
theorem package_without_a_byte_behind_garbage :
    (parse {} ([0x66, 0x77, 0x0a] ++ package [0x01, 0x46])).parsed = false ∧
      (parse {} ([0x66, 0x77, 0x0a] ++ package [0x01, 0x46])).payload = [0x01, 0x46] :=
  package_without_a_byte_behind (by decide) (by decide)

/-- The package of one byte at the start of the stream. -/
theorem package_of_one_byte_unreported :
    ¬ (∀ (g payload : List UInt8), ¬ framePrefix <:+: g → payload.length ≤ 255 →
      (parse {} (g ++ package payload)).parsed = true ∧ (parse {} (g ++ package payload)).payload = payload) := by
  intro h
  have h := (h [] [0x31] (by decide) (by decide)).1
  exact absurd h (by decide)

/-- Whatever byte comes next completes it. -/
theorem any_byte_behind_completes {g : List UInt8} (hg : ¬ framePrefix <:+: g) {payload : List UInt8}
    (hpayload : payload.length ≤ 255) (byte : UInt8) :
    (parse {} (g ++ package payload ++ [byte])).parsed = true ∧
      (parse {} (g ++ package payload ++ [byte])).payload = payload := by
  rw [parse_append, parse_package hg hpayload]
  exact ⟨rfl, rfl⟩

end VersionParser

end Esp32Cam.Ver
