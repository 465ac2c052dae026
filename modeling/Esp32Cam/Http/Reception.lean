/-
  Esp32Cam.Http.Reception — the loop that receives the body of an upload.

  Each round asks for what remains, a scratch buffer at most, and hands it on to the
  handler; `0` ends the reception with a failure, the last byte with success. The loop does
  not look at what the handler answers, so the handler is any function on a state of its
  own; `record` keeps the calls.

  What is received is counted in an unsigned word. Only `0` is found at or below zero: a
  negative result, the timeout among them, is a length of more than two gigabytes, handed
  on with the scratch buffer, and added to what remains
  (`a_timeout_is_handed_on_as_data`). The loop is faithful exactly when it meets no
  negative result (`reception_iff`).
-/

import Esp32Cam.Lib.Run
import Esp32Cam.Http.FwUpload

namespace Esp32Cam.Http

open Esp32Cam.Lib

def kIntermediateBufferMaxLength : Nat := 512
def httpdSockErrTimeout : Int := -3

abbrev SockErr := { code : Int // -2 ^ 31 ≤ code ∧ code < 0 }

/-- What a call of `httpd_req_recv` comes to; none of the bytes is the end of the connection. -/
inductive RecvResult where
  | received (data : List UInt8)
  | error (code : SockErr)
  deriving DecidableEq

inductive HandlerCall where
  | receiving (input : List UInt8) (inputSize : Nat)
  | finished (espErr : EspErr)
  deriving DecidableEq, Repr

/-- The loop between two calls of `httpd_req_recv`, with all that has been received, and whether an error
    other than a timeout has. -/
structure Reception (η : Type) where
  remaining : Nat
  buffer : List UInt8
  handler : η
  response : Option String
  returned : Option EspErr
  received : List UInt8
  failed : Bool
  deriving DecidableEq, Repr

namespace Reception

variable {η : Type}

/-- As many of the bytes as are asked for are put into the buffer. -/
def httpdReqRecv (s : Reception η) : RecvResult → Reception η × Int
  | .received data =>
    let data := data.take (min s.remaining kIntermediateBufferMaxLength)
    ({ s with
        buffer   := splice s.buffer 0 data
        received := s.received ++ data
        failed   := s.failed || data.isEmpty }, data.length)
  | .error code => ({ s with failed := s.failed || decide (code.val ≠ httpdSockErrTimeout) }, code.val)

/-- The body of the loop. -/
def receive (handle : η → HandlerCall → η) (s : Reception η) (r : RecvResult) : Reception η :=
  let (s, result) := s.httpdReqRecv r
  let nReceived := uint32 result
  if nReceived ≤ 0 then
    if nReceived = uint32 httpdSockErrTimeout then s
    else { s with
      handler  := handle s.handler (.finished .fail)
      response := some "Failed to receive file"
      returned := some .fail }
  else { s with
    handler   := handle s.handler (.receiving s.buffer nReceived)
    remaining := u32Sub s.remaining nReceived }

def finish (handle : η → HandlerCall → η) (s : Reception η) : Reception η :=
  if s.returned = none ∧ s.remaining = 0 then { s with
    handler  := handle s.handler (.finished .ok)
    response := some "File uploaded successfully"
    returned := some .ok }
  else s

/-- `httpdReqIterateReceiveInputBytes`, one result of `httpd_req_recv` after the other. -/
def step (handle : η → HandlerCall → η) (s : Reception η) (r : RecvResult) : Reception η :=
  if s.returned.isSome then s else finish handle (receive handle s r)

def start (handle : η → HandlerCall → η) (handler : η) (contentLen : Nat) : Reception η :=
  finish handle
    { remaining := contentLen
      buffer    := List.replicate kIntermediateBufferMaxLength 0
      handler   := handler
      response  := none
      returned  := none
      received  := []
      failed    := false }

/-- A negative result does not reach the loop. -/
def Sound (s : Reception η) (r : RecvResult) : Prop := s.returned.isSome = true ∨ ∀ code, r ≠ .error code

/-! ## One result -/

section
variable (handle : η → HandlerCall → η) (s : Reception η)

def completed : Reception η := { s with
  handler  := handle s.handler (.finished .ok)
  response := some "File uploaded successfully"
  returned := some .ok }

def broken : Reception η := { s with
  failed   := true
  handler  := handle s.handler (.finished .fail)
  response := some "Failed to receive file"
  returned := some .fail }

def taken (data : List UInt8) : List UInt8 := data.take (min s.remaining kIntermediateBufferMaxLength)

def delivered (data : List UInt8) : Reception η := { s with
  buffer    := splice s.buffer 0 (s.taken data)
  received  := s.received ++ s.taken data
  handler   := handle s.handler (.receiving (splice s.buffer 0 (s.taken data)) (s.taken data).length)
  remaining := s.remaining - (s.taken data).length }

/-- A negative result has been handed on as a length. -/
def misread (code : SockErr) : Reception η := { s with
  failed    := s.failed || decide (code.val ≠ httpdSockErrTimeout)
  handler   := handle s.handler (.receiving s.buffer (uint32 code.val))
  remaining := u32Sub s.remaining (uint32 code.val) }

end

section
variable {handle : η → HandlerCall → η} {s : Reception η} {data : List UInt8}

structure Sane (s : Reception η) : Prop where
  remaining : s.remaining < 2 ^ 32
  buffer : s.buffer.length = kIntermediateBufferMaxLength

structure Ready (s : Reception η) : Prop extends Sane s where
  more : s.returned = none → s.remaining ≠ 0

theorem finish_of_zero (hnone : s.returned = none) (hzero : s.remaining = 0) : finish handle s = s.completed handle :=
  if_pos ⟨hnone, hzero⟩

theorem finish_of_more (hmore : s.remaining ≠ 0) : finish handle s = s := if_neg fun h => hmore h.2

theorem finish_ready (hs : Sane s) : Ready (finish handle s) := by
  unfold finish
  split
  · exact ⟨⟨hs.remaining, hs.buffer⟩, fun hnone => by cases hnone⟩
  · rename_i hnot
    exact ⟨hs, fun hnone hzero => hnot ⟨hnone, hzero⟩⟩

variable (handle) in
/-- The state that the loop starts from. -/
theorem start_eq (handler : η) (contentLen : Nat) : ∃ s : Reception η, start handle handler contentLen = finish handle s ∧
    s.remaining = contentLen ∧ s.buffer.length = kIntermediateBufferMaxLength ∧ s.handler = handler ∧ s.response = none ∧
    s.returned = none ∧ s.received = [] ∧ s.failed = false :=
  ⟨_, rfl, rfl, List.length_replicate, rfl, rfl, rfl, rfl, rfl⟩

theorem start_ready {handler : η} {contentLen : Nat} (h : contentLen < 2 ^ 32) :
    Ready (start handle handler contentLen) :=
  finish_ready ⟨h, List.length_replicate⟩

theorem step_returned (h : s.returned.isSome = true) (r : RecvResult) : step handle s r = s := if_pos h

theorem step_of_none (hnone : s.returned = none) (r : RecvResult) : step handle s r = finish handle (receive handle s r) := by
  have hnot : ¬ s.returned.isSome = true := by
    rw [hnone]
    exact Bool.false_ne_true
  exact if_neg hnot

/-- Something is taken, no more than there is room for. -/
theorem taken_bounds (hmore : s.remaining ≠ 0) (hne : data ≠ []) : 0 < (s.taken data).length ∧
    (s.taken data).length ≤ s.remaining ∧ (s.taken data).length ≤ kIntermediateBufferMaxLength := by
  have hdata := List.length_pos_iff.mpr hne
  have hlength : (s.taken data).length = min (min s.remaining kIntermediateBufferMaxLength) data.length := List.length_take
  have hk : kIntermediateBufferMaxLength = 512 := rfl
  omega

/-- Bytes that come are handed on. -/
theorem step_received (hs : Sane s) (hnone : s.returned = none) (hmore : s.remaining ≠ 0) (hne : data ≠ []) :
    step handle s (.received data) = finish handle (s.delivered handle data) := by
  obtain ⟨hpos, hle, -⟩ := taken_bounds hmore hne
  have hword := hs.remaining
  have hsub : u32Sub s.remaining (s.taken data).length = s.remaining - (s.taken data).length := by
    unfold u32Sub uint32
    omega
  have hcount : uint32 ((s.taken data).length : Int) = (s.taken data).length := uint32_of_lt (by omega)
  have hempty : (s.taken data).isEmpty = false := by
    rw [List.isEmpty_eq_false_iff]
    exact List.ne_nil_of_length_pos hpos
  have hreceive : receive handle s (.received data) = s.delivered handle data := by
    unfold receive httpdReqRecv
    show (if uint32 ((s.taken data).length : Int) ≤ 0 then _ else ({ s with
      buffer    := splice s.buffer 0 (s.taken data)
      received  := s.received ++ s.taken data
      handler   := handle s.handler
        (.receiving (splice s.buffer 0 (s.taken data)) (uint32 ((s.taken data).length : Int)))
      remaining := u32Sub s.remaining (uint32 ((s.taken data).length : Int))
      failed    := s.failed || (s.taken data).isEmpty } : Reception η)) = _
    rw [hcount, if_neg (Nat.not_le.mpr hpos), hsub, hempty, Bool.or_false]
    rfl
  rw [step_of_none hnone, hreceive]

/-- The end of the connection is a failure. -/
theorem step_closed (hnone : s.returned = none) : step handle s (.received []) = s.broken handle := by
  have hreceive : receive handle s (.received []) = s.broken handle := by
    simp [receive, httpdReqRecv, splice, uint32, httpdSockErrTimeout, broken]
  rw [step_of_none hnone, hreceive]
  exact if_neg fun h => by cases h.1

/-- A negative result is a length of more than two gigabytes. -/
theorem uint32_code (code : SockErr) : 2 ^ 31 ≤ uint32 code.val := by
  have hcode := code.property
  unfold uint32
  omega

/-- It is handed on with the scratch buffer, whatever it stands for. -/
theorem step_error (hnone : s.returned = none) (code : SockErr) :
    step handle s (.error code) = finish handle (s.misread handle code) := by
  have hcode := uint32_code code
  have hreceive : receive handle s (.error code) = s.misread handle code := by
    unfold receive httpdReqRecv
    exact if_neg (by omega)
  rw [step_of_none hnone, hreceive]

theorem delivered_sane (hs : Sane s) (hmore : s.remaining ≠ 0) (hne : data ≠ []) : Sane (s.delivered handle data) := by
  obtain ⟨-, -, hlength⟩ := taken_bounds hmore hne
  refine ⟨Nat.lt_of_le_of_lt (Nat.sub_le _ _) hs.remaining, ?_⟩
  have hfits : 0 + (s.taken data).length ≤ s.buffer.length := by
    rw [Nat.zero_add, hs.buffer]
    exact hlength
  exact (length_splice hfits).trans hs.buffer

theorem misread_sane (hs : Sane s) (code : SockErr) : Sane (s.misread handle code) := ⟨u32Sub_lt _ _, hs.buffer⟩

/-- What the loop has between two calls it has after the next. -/
theorem step_ready (hs : Ready s) (r : RecvResult) : Ready (step handle s r) := by
  by_cases hreturned : s.returned.isSome = true
  · rw [step_returned hreturned]
    exact hs
  · have hnone := Option.not_isSome_iff_eq_none.mp hreturned
    cases r with
    | error code =>
      rw [step_error hnone]
      exact finish_ready (misread_sane hs.toSane code)
    | received data =>
      cases data with
      | nil =>
        rw [step_closed hnone]
        exact ⟨⟨hs.remaining, hs.buffer⟩, fun h => by cases h⟩
      | cons b data =>
        rw [step_received hs.toSane hnone (hs.more hnone) (List.cons_ne_nil b data)]
        exact finish_ready (delivered_sane hs.toSane (hs.more hnone) (List.cons_ne_nil b data))

/-! ## All results -/

theorem run_returned (h : s.returned.isSome = true) (rs : List RecvResult) : run (step handle) s rs = s := by
  induction rs with
  | nil => rfl
  | cons r rs ih =>
    rw [run_cons, step_returned h]
    exact ih

variable (handle) in
/-- What holds of the state that a run ends in: one case for each way the loop goes on. -/
theorem run_rule {P : Reception η → List RecvResult → Reception η → Prop}
    (hcompleted : ∀ s rs, s.returned = none → s.remaining = 0 → P s rs (s.completed handle))
    (hwaiting : ∀ s, s.returned = none → s.remaining ≠ 0 → P s [] s)
    (hbroken : ∀ s rs, s.returned = none → s.remaining ≠ 0 → P s (.received [] :: rs) (s.broken handle))
    (hdelivered : ∀ s data rs v, s.remaining ≠ 0 → data ≠ [] → Sane s → P (s.delivered handle data) rs v →
      P s (.received data :: rs) v)
    (hmisread : ∀ s code rs v, s.remaining ≠ 0 → Sane s → P (s.misread handle code) rs v → P s (.error code :: rs) v)
    (hs : Sane s) (hnone : s.returned = none) (rs : List RecvResult) : P s rs (run (step handle) (finish handle s) rs) := by
  induction rs generalizing s with
  | nil =>
    by_cases hzero : s.remaining = 0
    · rw [finish_of_zero hnone hzero]
      exact hcompleted s [] hnone hzero
    · rw [finish_of_more hzero]
      exact hwaiting s hnone hzero
  | cons r rs ih =>
    by_cases hzero : s.remaining = 0
    · rw [finish_of_zero hnone hzero, run_returned rfl]
      exact hcompleted s (r :: rs) hnone hzero
    · rw [finish_of_more hzero, run_cons]
      cases r with
      | error code =>
        rw [step_error hnone]
        exact hmisread s code rs _ hzero hs (ih (misread_sane hs code) hnone)
      | received data =>
        cases data with
        | nil =>
          rw [step_closed hnone, run_returned rfl]
          exact hbroken s rs hnone hzero
        | cons b data =>
          rw [step_received hs hnone hzero (List.cons_ne_nil b data)]
          exact hdelivered s (b :: data) rs _ hzero (List.cons_ne_nil b data) hs
            (ih (delivered_sane hs hzero (List.cons_ne_nil b data)) hnone)

/-- The results count down to zero what remains; with `negative`, negative ones among them. -/
def Completes (negative : Bool) : Nat → List RecvResult → Prop
  | n, [] => n = 0
  | n, .received data :: rs =>
    n = 0 ∨ data ≠ [] ∧ Completes negative (n - (data.take (min n kIntermediateBufferMaxLength)).length) rs
  | n, .error code :: rs => n = 0 ∨ negative = true ∧ Completes negative (u32Sub n (uint32 code.val)) rs

theorem completes_zero (negative : Bool) (rs : List RecvResult) : Completes negative 0 rs := by
  cases rs with
  | nil => rfl
  | cons r rs => cases r <;> exact .inl rfl

theorem completes_received {negative : Bool} {n : Nat} {rs : List RecvResult} (hmore : n ≠ 0) :
    Completes negative n (.received data :: rs) ↔
      data ≠ [] ∧ Completes negative (n - (data.take (min n kIntermediateBufferMaxLength)).length) rs :=
  ⟨fun h => h.resolve_left hmore, .inr⟩

theorem completes_error {negative : Bool} {n : Nat} {code : SockErr} {rs : List RecvResult} (hmore : n ≠ 0) :
    Completes negative n (.error code :: rs) ↔
      negative = true ∧ Completes negative (u32Sub n (uint32 code.val)) rs :=
  ⟨fun h => h.resolve_left hmore, .inr⟩

variable (handle) in
/-- Success is returned exactly when what remains is counted down to zero. -/
theorem returned_ok_iff (hs : Sane s) (hnone : s.returned = none) (rs : List RecvResult) :
    (run (step handle) (finish handle s) rs).returned = some .ok ↔ Completes true s.remaining rs := by
  apply run_rule handle (P := fun s rs v => v.returned = some .ok ↔ Completes true s.remaining rs) ?_ ?_ ?_ ?_ ?_ hs hnone
  · intro s rs _ hzero
    rw [hzero]
    exact ⟨fun _ => completes_zero true rs, fun _ => rfl⟩
  · intro s hnone hmore
    rw [hnone]
    exact ⟨fun h => (by cases h), fun h => absurd h hmore⟩
  · intro s rs _ hmore
    exact ⟨fun h => (by cases h), fun h => absurd rfl ((completes_received hmore).mp h).1⟩
  · intro s data rs v hmore hne _ ih
    rw [completes_received hmore]
    exact ih.trans ⟨fun h => ⟨hne, h⟩, fun h => h.2⟩
  · intro s code rs v hmore _ ih
    rw [completes_error hmore]
    exact ih.trans ⟨fun h => ⟨rfl, h⟩, fun h => h.2⟩

end

/-! ## The calls of the handler -/

def record (calls : List HandlerCall) (c : HandlerCall) : List HandlerCall := calls ++ [c]

/-- The handler has been given what has been received, in order and once, and been told the outcome. -/
structure Faithful (contentLen : Nat) (s : Reception (List HandlerCall)) : Prop where
  calls : ∃ pieces : List (List UInt8 × Nat),
    s.handler = pieces.map (fun p => .receiving p.1 p.2) ++ (s.returned.map .finished).toList ∧
      (∀ p ∈ pieces, 0 < p.2 ∧ p.2 ≤ p.1.length) ∧ (pieces.map fun p => p.1.take p.2).flatten = s.received
  ok : s.returned = some .ok ↔ s.received.length = contentLen
  fail : s.returned = some .fail ↔ s.failed = true
  remaining : s.remaining + s.received.length = contentLen

def Retries (s : Reception (List HandlerCall)) (r : RecvResult) : Prop :=
  ∀ code, r = .error code → code.val = httpdSockErrTimeout → step record s r = s

/-- A call of the handler with a part of the buffer and its length. -/
theorem Faithful.inputSize_le {contentLen : Nat} {s : Reception (List HandlerCall)} (hs : Faithful contentLen s)
    {input : List UInt8} {inputSize : Nat} (h : .receiving input inputSize ∈ s.handler) : inputSize ≤ input.length := by
  obtain ⟨pieces, hhandler, hpieces, -⟩ := hs.calls
  rw [hhandler, List.mem_append] at h
  rcases h with h | h
  · obtain ⟨p, hp, heq⟩ := List.mem_map.mp h
    cases heq
    exact (hpieces p hp).2
  · cases hreturned : s.returned with
    | none => simp [hreturned] at h
    | some e => simp [hreturned] at h

theorem start_faithful (contentLen : Nat) : Faithful contentLen (start record [] contentLen) := by
  unfold start finish
  by_cases hzero : contentLen = 0
  · rw [if_pos ⟨rfl, hzero⟩]
    refine ⟨⟨[], rfl, by simp, rfl⟩, ?_, ?_, ?_⟩ <;> simp [hzero]
  · rw [if_neg fun h => hzero h.2]
    refine ⟨⟨[], rfl, by simp, rfl⟩, ?_, ?_, ?_⟩ <;> simp
    omega

/-- After a piece, with what there is to do at the end. -/
theorem Faithful.finish_delivered {contentLen : Nat} {s : Reception (List HandlerCall)} (hs : Faithful contentLen s)
    (hready : Ready s) (hnone : s.returned = none) {data : List UInt8} (hne : data ≠ []) :
    Faithful contentLen (finish record (s.delivered record data)) := by
  obtain ⟨pieces, hhandler, hpieces, hflatten⟩ := hs.calls
  obtain ⟨hpos, hle, hlength⟩ := taken_bounds (hready.more hnone) hne
  have hremaining := hs.remaining
  have hfailed : s.failed ≠ true := by
    intro hfailed
    have hfail := hs.fail.mpr hfailed
    rw [hnone] at hfail
    cases hfail
  have hcalls : s.handler = pieces.map fun p => .receiving p.1 p.2 := by simpa [hnone] using hhandler
  have hbuffer : (splice s.buffer 0 (s.taken data)).take (s.taken data).length = s.taken data := by
    have htake := take_splice s.buffer (s.taken data) 0 (Nat.zero_le _)
    rwa [Nat.zero_add] at htake
  have hsane : Sane (s.delivered record data) := delivered_sane hready.toSane (hready.more hnone) hne
  have hmore : ∀ p ∈ pieces ++ [(splice s.buffer 0 (s.taken data), (s.taken data).length)], 0 < p.2 ∧ p.2 ≤ p.1.length := by
    intro p hp
    rcases List.mem_append.mp hp with hp | hp
    · exact hpieces p hp
    · rw [List.mem_singleton.mp hp]
      exact ⟨hpos, hlength.trans_eq hsane.buffer.symm⟩
  have hreceived : ((pieces ++ [(splice s.buffer 0 (s.taken data), (s.taken data).length)]).map
      fun p => p.1.take p.2).flatten = s.received ++ s.taken data := by
    simp [hflatten, hbuffer]
  by_cases hzero : s.remaining - (s.taken data).length = 0
  · rw [finish_of_zero (s := s.delivered record data) hnone hzero]
    refine ⟨⟨_, ?_, hmore, hreceived⟩, ?_, ?_, ?_⟩
    · simp [completed, delivered, record, hcalls]
    · simp [completed, delivered]
      omega
    · simp [completed, delivered, hfailed]
    · simp [completed, delivered]
      omega
  · rw [finish_of_more (s := s.delivered record data) hzero]
    refine ⟨⟨_, ?_, hmore, hreceived⟩, ?_, ?_, ?_⟩
    · simp [delivered, record, hcalls, hnone]
    · simp [delivered, hnone]
      omega
    · simp [delivered, hnone, hfailed]
    · simp [delivered]
      omega

/-- A step keeps the handler informed exactly when it is sound. -/
theorem step_faithful_iff {contentLen : Nat} {s : Reception (List HandlerCall)} {r : RecvResult} (hready : Ready s)
    (hs : Faithful contentLen s) : Faithful contentLen (step record s r) ↔ Sound s r := by
  by_cases hreturned : s.returned.isSome = true
  · rw [step_returned hreturned]
    exact ⟨fun _ => .inl hreturned, fun _ => hs⟩
  · have hnone := Option.not_isSome_iff_eq_none.mp hreturned
    cases r with
    | error code =>
      have hsound : ¬ Sound s (.error code) := fun h => (h.resolve_left hreturned) code rfl
      refine ⟨fun h => absurd ?_ hsound, fun h => absurd h hsound⟩
      have hmem : HandlerCall.receiving s.buffer (uint32 code.val) ∈ (step record s (.error code)).handler := by
        rw [step_error hnone]
        unfold finish
        split <;> simp [misread, record]
      have hle := h.inputSize_le hmem
      have hcode := uint32_code code
      have hk : kIntermediateBufferMaxLength = 512 := rfl
      rw [hready.buffer] at hle
      omega
    | received data =>
      refine ⟨fun _ => .inr fun code h => (by cases h), fun _ => ?_⟩
      cases data with
      | nil =>
        obtain ⟨pieces, hhandler, hpieces, hflatten⟩ := hs.calls
        have hremaining := hs.remaining
        have hmore := hready.more hnone
        rw [step_closed hnone]
        refine ⟨⟨pieces, ?_, hpieces, hflatten⟩, ?_, ?_, hremaining⟩
        · simp [broken, record, hhandler, hnone]
        · simp [broken]
          omega
        · simp [broken]
      | cons b data =>
        rw [step_received hready.toSane hnone (hready.more hnone) (List.cons_ne_nil b data)]
        exact hs.finish_delivered hready hnone (List.cons_ne_nil b data)

/-- **Reception.** The handler is given all that is received, and told of the outcome, in every
    state of an upload, and a timeout changes nothing, exactly when no negative result
    comes before the loop has returned. -/
theorem reception_iff {contentLen : Nat} (h : contentLen < 2 ^ 32) (rs : List RecvResult) :
    (Always (step record) (Faithful contentLen) (start record [] contentLen) rs ∧
      Along (step record) Retries (start record [] contentLen) rs) ↔
    Along (step record) Sound (start record [] contentLen) rs := by
  have hready : Ready (start record [] contentLen) := start_ready h
  have hiff : Always (step record) (Faithful contentLen) (start record [] contentLen) rs ↔
      Along (step record) Sound (start record [] contentLen) rs :=
    always_iff_along (fun s r hs _ _ => step_ready hs r)
      (fun s r hs hfaithful => step_faithful_iff hs hfaithful) hready (start_faithful contentLen)
  refine ⟨fun hboth => hiff.mp hboth.1, fun hsound => ⟨hiff.mpr hsound, ?_⟩⟩
  refine along_of_along (I := Ready) (fun s r hs _ => step_ready hs r) ?_ hready hsound
  intro s r hs hsound code hr htimeout
  rcases hsound with hreturned | hnone
  · exact step_returned hreturned r
  · exact absurd hr (hnone code)

/-- Seven bytes, three and four of them at a time. -/
theorem reception_of_seven :
    Always (step record) (Faithful 7) (start record [] 7) [.received [1, 2, 3], .received [4, 5, 6, 7]] :=
  ((reception_iff (by decide) [.received [1, 2, 3], .received [4, 5, 6, 7]]).mpr
    ⟨.inr fun _ h => (by cases h), .inr fun _ h => (by cases h), trivial⟩).1

/-- A timeout is handed on as a length of 2 ^ 32 - 3 bytes and makes three more bytes remain: all four
    bytes come, and the loop goes on. -/
theorem a_timeout_is_handed_on_as_data :
    ∃ timeout : SockErr, timeout.val = httpdSockErrTimeout ∧
      (let s := step record (start record [] 4) (.error timeout)
       s.handler = [.receiving (List.replicate 512 0) 4294967293] ∧ s.remaining = 7 ∧ ¬ Faithful 4 s ∧
         ¬ Retries (start record [] 4) (.error timeout) ∧
         (step record s (.received [1, 2, 3, 4])).received.length = 4 ∧
         (step record s (.received [1, 2, 3, 4])).remaining = 3 ∧
         (step record s (.received [1, 2, 3, 4])).returned = none) := by
  refine ⟨⟨httpdSockErrTimeout, by decide⟩, rfl, ?_, ?_, ?_, ?_, ?_, ?_, ?_⟩
  · decide +kernel
  · decide +kernel
  · intro h
    have hremaining := h.remaining
    revert hremaining
    decide +kernel
  · intro h
    have hremaining := congrArg remaining (h ⟨httpdSockErrTimeout, by decide⟩ rfl rfl)
    revert hremaining
    decide +kernel
  · decide +kernel
  · decide +kernel
  · decide +kernel

end Reception

end Esp32Cam.Http
