/-
  Esp32Cam.Mav.Dispatcher — the MAVLink dispatcher on the way between two interfaces.

  The dispatcher is a receiver. It feeds the buffer to the parser up to the first
  complete message, hands the message to the microservices, and takes what it has read
  off the buffer: it forwards these bytes where no message was completed or none of the
  microservices takes it, and withholds them otherwise.

  The parser (`Mavlink`) and the microservices are parameters: machines that go from
  state to state byte by byte and message by message. `received_independent`: what the
  microservices are handed and what is responded do not depend on where the received
  buffers end. `chunk_independent_iff`: the forwarded bytes do not, either, exactly when
  the microservices take none of the messages. The bytes of a message that is cut in two
  are forwarded but for the last buffer of them, and withheld when it is not
  (`a_cut_message_is_forwarded_in_part`).
-/

import Esp32Cam.Lib.Framing
import Esp32Cam.Bdg.Receiver
import Esp32Cam.Mav.FtpAnswers

namespace Esp32Cam.Mav

open Esp32Cam.Lib Esp32Cam.Bdg Esp32Cam.Ut.Cont

/-- The MAVLink library: a byte is fed to the parser, and a message packed. -/
structure Mavlink (π M : Type) where
  frameCharBuffer : π → UInt8 → π × Option M
  msgToSendBuffer : M → List UInt8

/-- The microservices: their states `μ`, and what they make of a message: whether they
    take it, and the messages they respond with. -/
abbrev Aggregate (M μ : Type) : Type := μ → M → μ × Microservice.Ret × List M

structure Unmarshalling (π M : Type) where
  input : π
  queue : List M

def kUnmarshallingQueueMaxSize : Nat := 1

structure Dispatcher (π M μ : Type) where
  unmarshalling : Unmarshalling π M
  micAggregate : μ
  resp : List UInt8
  /-- The messages handed to the microservices. -/
  handed : List M

section
variable {π M μ ε ρ : Type}

/-- Bytes are fed as long as the queue has room; the second component counts them. -/
def Unmarshalling.push (lib : Mavlink π M) (u : Unmarshalling π M) : List UInt8 → Unmarshalling π M × Nat
  | [] => (u, 0)
  | ch :: buffer =>
    if u.queue.length < kUnmarshallingQueueMaxSize then
      let (input, parsedMessage) := lib.frameCharBuffer u.input ch
      let (u, counter) := Unmarshalling.push lib { input := input, queue := u.queue ++ parsedMessage.toList } buffer
      (u, counter + 1)
    else (u, 0)

def Dispatcher.process (lib : Mavlink π M) (mic : Aggregate M μ) (d : Dispatcher π M μ) (buffer : ConstBuffer) :
    Dispatcher π M μ × Microservice.Ret × Nat :=
  let (unmarshalling, nProcessed) := d.unmarshalling.push lib buffer.bytes
  match unmarshalling.queue with
  | [] => ({ d with unmarshalling := unmarshalling }, .ignored, nProcessed)
  | message :: rest =>
    let (micAggregate, ret, responses) := mic d.micAggregate message
    ({ unmarshalling := { unmarshalling with queue := rest }
       micAggregate := micAggregate
       resp := (responses.map lib.msgToSendBuffer).flatten
       handed := d.handed ++ [message] }, ret, nProcessed)

/-- The dispatcher receives a buffer: what it forwards, what it responds, and what it leaves. -/
def Dispatcher.onReceive (lib : Mavlink π M) (mic : Aggregate M μ) (d : Dispatcher π M μ) (ctx : NotifyCtx ε ρ) :
    Dispatcher π M μ × List (ForwardCtx ρ) × List (List UInt8) × ConstBuffer :=
  let (d, ret, nprocessed) := d.process lib mic ctx.buffer
  let left := ctx.buffer.slice nprocessed
  match ret with
  | .ignored => (d, [⟨ctx.buffer.asSlice 0 nprocessed, ctx.respondCb⟩], [], left)
  | .noResponse => (d, [], [], left)
  | .response => (d, [], [d.resp], left)

/-! ## The dispatcher, byte by byte -/

/-- A message, whether the microservices take it, and the response. -/
structure Handled (M : Type) where
  message : M
  ret : Microservice.Ret
  resp : List UInt8

def handle (lib : Mavlink π M) (mic : Aggregate M μ) (micAggregate : μ) (message : M) : Handled M :=
  ⟨message, (mic micAggregate message).2.1, ((mic micAggregate message).2.2.map lib.msgToSendBuffer).flatten⟩

/-- The parser and the microservices as one machine over the bytes. -/
def byteStep (lib : Mavlink π M) (mic : Aggregate M μ) (s : π × μ) (ch : UInt8) : (π × μ) × Option (Handled M) :=
  match lib.frameCharBuffer s.1 ch with
  | (input, none) => ((input, s.2), none)
  | (input, some message) => ((input, (mic s.2 message).1), some (handle lib mic s.2 message))

def Dispatcher.state (d : Dispatcher π M μ) : π × μ := (d.unmarshalling.input, d.micAggregate)

variable {lib : Mavlink π M} {mic : Aggregate M μ} {d : Dispatcher π M μ}

theorem push_of_full (u : Unmarshalling π M) (hu : u.queue.length = 1) (bs : List UInt8) : u.push lib bs = (u, 0) := by
  cases bs with
  | nil => rfl
  | cons b bs =>
    have hfull : ¬ u.queue.length < kUnmarshallingQueueMaxSize := by rw [hu]; decide
    rw [Unmarshalling.push, if_neg hfull]

/-- An empty queue is filled with the first message. -/
theorem push_eq (input : π) (bs : List UInt8) : Unmarshalling.push lib ⟨input, []⟩ bs =
    (⟨(readOne lib.frameCharBuffer input bs).2.1, (readOne lib.frameCharBuffer input bs).2.2.toList⟩,
      (readOne lib.frameCharBuffer input bs).1) := by
  induction bs generalizing input with
  | nil => rfl
  | cons b bs ih =>
    have hroom : ([] : List M).length < kUnmarshallingQueueMaxSize := Nat.zero_lt_one
    rw [Unmarshalling.push, if_pos hroom, readOne]
    rcases hs : lib.frameCharBuffer input b with ⟨input', _ | m⟩
    · simp only [Option.toList_none, List.nil_append, ih]
    · simp only [Option.toList_some, List.nil_append]
      rw [push_of_full _ rfl]

theorem readOne_byteStep (s : π × μ) (bs : List UInt8) : readOne (byteStep lib mic) s bs =
    ((readOne lib.frameCharBuffer s.1 bs).1,
      match (readOne lib.frameCharBuffer s.1 bs).2.2 with
      | none => (((readOne lib.frameCharBuffer s.1 bs).2.1, s.2), none)
      | some m => (((readOne lib.frameCharBuffer s.1 bs).2.1, (mic s.2 m).1), some (handle lib mic s.2 m))) := by
  induction bs generalizing s with
  | nil => rfl
  | cons b bs ih =>
    rw [readOne, readOne, byteStep]
    rcases hs : lib.frameCharBuffer s.1 b with ⟨input, _ | m⟩
    · simp only [ih]
    · rfl

/-- What the dispatcher makes of a buffer: it reads the first message of it, or all of it. -/
theorem process_eq (hq : d.unmarshalling.queue = []) (buffer : ConstBuffer) :
    d.process lib mic buffer =
      let r := readOne (byteStep lib mic) d.state buffer.bytes
      ({ unmarshalling := ⟨r.2.1.1, []⟩
         micAggregate := r.2.1.2
         resp := (r.2.2.map Handled.resp).getD d.resp
         handed := d.handed ++ (r.2.2.map Handled.message).toList },
        (r.2.2.map Handled.ret).getD .ignored, r.1) := by
  obtain ⟨⟨input, queue⟩, micAggregate, resp, handed⟩ := d
  obtain rfl : queue = [] := hq
  rw [Dispatcher.process]
  simp only [push_eq, readOne_byteStep, Dispatcher.state]
  cases (readOne lib.frameCharBuffer input buffer.bytes).2.2 with
  | none => simp
  | some m => simp [handle]

/-- What the dispatcher reads a buffer for. -/
def Dispatcher.reads (lib : Mavlink π M) (mic : Aggregate M μ) (d : Dispatcher π M μ) (buffer : ConstBuffer) :
    Nat × (π × μ) × Option (Handled M) := readOne (byteStep lib mic) d.state buffer.bytes

/-- The bytes are forwarded: no message is complete, or none of the microservices takes it. -/
def passes (o : Option (Handled M)) : Bool := o.all fun h => h.ret == .ignored

def responds (h : Handled M) : List (List UInt8) := if h.ret = .response then [h.resp] else []

theorem onReceive_eq (lib : Mavlink π M) (mic : Aggregate M μ) (hq : d.unmarshalling.queue = []) (ctx : NotifyCtx ε ρ) :
    let r := d.reads lib mic ctx.buffer
    let ret := d.onReceive lib mic ctx
    ret.1.state = r.2.1 ∧ ret.1.unmarshalling.queue = [] ∧ ret.1.handed = d.handed ++ r.2.2.toList.map Handled.message ∧
      ret.2.1 = (if passes r.2.2 then [⟨ctx.buffer.asSlice 0 r.1, ctx.respondCb⟩] else []) ∧
      ret.2.2.1 = r.2.2.toList.flatMap responds ∧ ret.2.2.2 = ctx.buffer.slice r.1 := by
  rw [Dispatcher.onReceive, process_eq hq, Dispatcher.reads]
  generalize readOne (byteStep lib mic) d.state ctx.buffer.bytes = r
  obtain ⟨n, ⟨input, micAggregate⟩, _ | ⟨message, ret, resp⟩⟩ := r
  · simp [Dispatcher.state, passes]
  · cases ret <;> simp [Dispatcher.state, passes, responds]

/-! ## Between two interfaces -/

/-- The dispatcher, whose messages are all taken off its queue, the responses it has given,
    and the bytes that have reached the other interface. -/
structure Bridge (π M μ : Type) where
  dispatcher : Dispatcher π M μ
  popped : dispatcher.unmarshalling.queue = []
  responses : List (List UInt8)
  forwarded : List UInt8

def Bridge.onReceive (lib : Mavlink π M) (mic : Aggregate M μ) (w : Bridge π M μ) (ctx : NotifyCtx ε ρ) :
    Bridge π M μ × List (ForwardCtx ρ) × ConstBuffer :=
  let ret := w.dispatcher.onReceive lib mic ctx
  ({ dispatcher := ret.1
     popped := (onReceive_eq lib mic w.popped ctx).2.1
     responses := w.responses ++ ret.2.2.1
     forwarded := w.forwarded }, ret.2.1, ret.2.2.2)

def Bridge.receiver (lib : Mavlink π M) (mic : Aggregate M μ) : Receiver (Bridge π M μ) Unit Unit :=
  ⟨(), Bridge.onReceive lib mic⟩

/-- The nested cycle: the bytes reach the other interface. -/
def Bridge.deliver (w : Bridge π M μ) (ctx : NotifyCtx Unit Unit) : Option (Bridge π M μ) :=
  some { w with forwarded := w.forwarded ++ ctx.buffer.bytes }

def Bridge.receive (lib : Mavlink π M) (mic : Aggregate M μ) (w : Bridge π M μ) (buffer : ConstBuffer) :
    Option (Bridge π M μ) :=
  (notifyReceiver Bridge.deliver (buffer.size + 1) (Bridge.receiver lib mic) ⟨(), buffer, ()⟩ () w).map Loop.world

def Bridge.receiveAll (lib : Mavlink π M) (mic : Aggregate M μ) (w : Bridge π M μ) (buffers : List ConstBuffer) :
    Option (Bridge π M μ) :=
  buffers.foldlM (Bridge.receive lib mic) w

def Bridge.init (input : π) (micAggregate : μ) : Bridge π M μ := ⟨⟨⟨input, []⟩, micAggregate, [], []⟩, rfl, [], []⟩

/-- The dispatcher takes its piece from the front of every buffer. -/
theorem bridge_slices (lib : Mavlink π M) (mic : Aggregate M μ) : Slices (Bridge.receiver lib mic) := by
  intro w ctx
  have h := onReceive_eq lib mic w.popped ctx
  refine ⟨(w.dispatcher.reads lib mic ctx.buffer).1, readOne_le _ _ _, fun hpos => readOne_pos _ _ ?_, h.2.2.2.2.2⟩
  exact List.ne_nil_of_length_pos hpos

/-- `w'` is `w` behind the bytes `bs`: their messages are handed over and responded to and,
    where the microservices take none of them, the bytes are forwarded. -/
structure Received (lib : Mavlink π M) (mic : Aggregate M μ) (w : Bridge π M μ) (bs : List UInt8) (w' : Bridge π M μ) :
    Prop where
  state : w'.dispatcher.state = (feed (byteStep lib mic) w.dispatcher.state bs).1
  handed : w'.dispatcher.handed =
    w.dispatcher.handed ++ (feed (byteStep lib mic) w.dispatcher.state bs).2.map Handled.message
  responses : w'.responses = w.responses ++ (feed (byteStep lib mic) w.dispatcher.state bs).2.flatMap responds
  passed : (∀ h ∈ (feed (byteStep lib mic) w.dispatcher.state bs).2, h.ret = .ignored) → w'.forwarded = w.forwarded ++ bs

theorem Received.refl (w : Bridge π M μ) : Received lib mic w [] w :=
  ⟨rfl, (List.append_nil _).symm, (List.append_nil _).symm, fun _ => (List.append_nil _).symm⟩

theorem Received.trans {w w' w'' : Bridge π M μ} {as bs : List UInt8} (h : Received lib mic w as w')
    (h' : Received lib mic w' bs w'') : Received lib mic w (as ++ bs) w'' := by
  have happ := feed_append (byteStep lib mic) w.dispatcher.state as bs
  rw [← h.state] at happ
  refine ⟨?_, ?_, ?_, fun hpass => ?_⟩
  · rw [happ]; exact h'.state
  · rw [happ, List.map_append, ← List.append_assoc, ← h.handed]; exact h'.handed
  · rw [happ, List.flatMap_append, ← List.append_assoc, ← h.responses]; exact h'.responses
  · rw [happ] at hpass
    rw [← List.append_assoc, ← h.passed fun x hx => hpass x (List.mem_append_left _ hx)]
    exact h'.passed fun x hx => hpass x (List.mem_append_right _ hx)

section
variable {l l' : Loop (Bridge π M μ) Unit Unit} {ctx : NotifyCtx Unit Unit} {v : Visit Unit Unit}

/-- Whatever the nested cycle is started for, it forwards bytes and does nothing else. -/
theorem visited_world (hv : Visited Bridge.deliver (Bridge.receiver lib mic) ctx () l v l') :
    let w := (Bridge.onReceive lib mic l.world { ctx with buffer := l.bufferSlice }).1
    l'.world.dispatcher = w.dispatcher ∧ l'.world.responses = w.responses ∧
      l'.world.forwarded = w.forwarded ++ (v.started.map fun next => next.buffer.bytes).getD [] := by
  cases hs : v.started with
  | none =>
    rw [hv.quiet hs]
    exact ⟨rfl, rfl, (List.append_nil _).symm⟩
  | some next =>
    have hnext := hv.cycled next hs
    rw [← Option.some_inj.mp hnext]
    exact ⟨rfl, rfl, rfl⟩

/-- The cycle a visit starts that passes its bytes on. -/
theorem visited_passes (hv : Visited Bridge.deliver (Bridge.receiver lib mic) ctx () l v l')
    (hp : passes (l.world.dispatcher.reads lib mic l.bufferSlice).2.2 = true) :
    (v.started.map fun next => next.buffer.bytes) =
      some (l.bufferSlice.bytes.take (l.world.dispatcher.reads lib mic l.bufferSlice).1) := by
  have h := (onReceive_eq lib mic l.world.popped { ctx with buffer := l.bufferSlice }).2.2.2.1
  dsimp only at h
  rw [if_pos hp] at h
  have hforwards : v.forwards = _ := hv.forwards.trans h
  rw [hv.asked (by rw [Visit.consumes, hforwards]; rfl), Visit.asked, hforwards]
  simp [ConstBuffer.asSlice]

theorem visit_received (hv : Visited Bridge.deliver (Bridge.receiver lib mic) ctx () l v l') :
    Received lib mic l.world (l.bufferSlice.bytes.take (l.world.dispatcher.reads lib mic l.bufferSlice).1) l'.world := by
  obtain ⟨hstate, _, hhanded, _, hresponses, _⟩ :=
    onReceive_eq lib mic l.world.popped { ctx with buffer := l.bufferSlice }
  obtain ⟨hd, hr, hf⟩ := visited_world hv
  have hfeed : feed (byteStep lib mic) l.world.dispatcher.state
      (l.bufferSlice.bytes.take (l.world.dispatcher.reads lib mic l.bufferSlice).1) =
      ((l.world.dispatcher.reads lib mic l.bufferSlice).2.1, (l.world.dispatcher.reads lib mic l.bufferSlice).2.2.toList) :=
    feed_take_readOne _ _ _
  refine ⟨?_, ?_, ?_, fun hpass => ?_⟩
  · rw [hfeed, hd]; exact hstate
  · rw [hfeed, hd]; exact hhanded
  · rw [hfeed, hr]; exact congrArg (l.world.responses ++ ·) hresponses
  · have hp : passes (l.world.dispatcher.reads lib mic l.bufferSlice).2.2 = true := by
      rw [hfeed] at hpass
      cases ho : (l.world.dispatcher.reads lib mic l.bufferSlice).2.2 with
      | none => rfl
      | some h =>
        have := hpass h (by rw [ho]; exact List.mem_singleton_self h)
        simp [passes, this]
    rw [hf, visited_passes hv hp]
    rfl

/-- What a received buffer does: its messages are handed over, wherever it ends. -/
theorem receive_received {w w' : Bridge π M μ} {buffer : ConstBuffer} (h : w.receive lib mic buffer = some w') :
    Received lib mic w buffer.bytes w' := by
  rw [Bridge.receive, Option.map_eq_some_iff] at h
  obtain ⟨l, hl, rfl⟩ := h
  have hsliced := revisit_sliced (bridge_slices lib mic) ⟨rfl, rfl⟩ hl
  rw [← hsliced]
  refine revisit_induct (P := fun l => Received lib mic w (l.visits.map Visit.piece).flatten l.world) ?_ (.refl w) hl
  intro l l' hprev hv
  obtain ⟨v, hv⟩ := visit_visited hv
  have hn : (l.world.dispatcher.reads lib mic l.bufferSlice).1 ≤ l.bufferSlice.size := readOne_le _ _ _
  have hslice := (onReceive_eq lib mic l.world.popped
    { (⟨(), buffer, ()⟩ : NotifyCtx Unit Unit) with buffer := l.bufferSlice }).2.2.2.2.2
  rw [(hv.pieces hn hslice).2]
  exact hprev.trans (visit_received hv)

theorem receive_returns (lib : Mavlink π M) (mic : Aggregate M μ) (w : Bridge π M μ) (buffer : ConstBuffer) :
    ∃ w', w.receive lib mic buffer = some w' := by
  have hcycle : ∀ (w : Bridge π M μ) (ctx : NotifyCtx Unit Unit), (w.deliver ctx).isSome = true := fun _ _ => rfl
  obtain ⟨l, hl⟩ := notifyReceiver_returns (bridge_slices lib mic) hcycle ⟨(), buffer, ()⟩ () w
  exact ⟨l.world, by rw [Bridge.receive, hl]; rfl⟩

/-- A buffer that is read in one visit is forwarded or withheld. -/
theorem receive_whole {w w' : Bridge π M μ} {buffer : ConstBuffer} (h : w.receive lib mic buffer = some w')
    (hn : (w.dispatcher.reads lib mic buffer).1 = buffer.size) :
    w'.forwarded = w.forwarded ++ if passes (w.dispatcher.reads lib mic buffer).2.2 then buffer.bytes else [] := by
  rw [Bridge.receive, Option.map_eq_some_iff] at h
  obtain ⟨l, hl, rfl⟩ := h
  rw [notifyReceiver, revisit, Option.bind_eq_some_iff] at hl
  obtain ⟨l₁, hv, hl⟩ := hl
  obtain ⟨v, hv⟩ := visit_visited hv
  have honReceive := onReceive_eq lib mic w.popped (⟨(), buffer, ()⟩ : NotifyCtx Unit Unit)
  have hempty : l₁.bufferSlice.size = 0 := by
    rw [(hv.pieces (Nat.le_of_eq hn) honReceive.2.2.2.2.2).1, hn, ConstBuffer.size_slice, Nat.sub_self]
  have hstop : Loop.continues (⟨(), buffer, ()⟩ : NotifyCtx Unit Unit) l₁ = false := by simp [Loop.continues, hempty]
  rw [hstop, if_neg Bool.false_ne_true] at hl
  obtain rfl := Option.some_inj.mp hl
  rw [(visited_world hv).2.2]
  congr 1
  cases hp : passes (w.dispatcher.reads lib mic buffer).2.2 with
  | true =>
    rw [visited_passes hv hp, if_pos rfl, Option.getD_some]
    dsimp only
    rw [hn]
    exact List.take_length
  | false =>
    have hforwards := honReceive.2.2.2.1
    rw [hp, if_neg Bool.false_ne_true] at hforwards
    have hconsumes : v.consumes = true := by rw [Visit.consumes, hv.forwards.trans hforwards]; rfl
    rw [(hv.behind hconsumes).mpr rfl]
    rfl

end

/-! ## Streams -/

def concat (buffers : List ConstBuffer) : List UInt8 := buffers.flatMap ConstBuffer.bytes

theorem receiveAll_cons (w : Bridge π M μ) (buffer : ConstBuffer) (buffers : List ConstBuffer) :
    w.receiveAll lib mic (buffer :: buffers) = (w.receive lib mic buffer).bind fun w' => w'.receiveAll lib mic buffers := rfl

theorem receiveAll_returns (lib : Mavlink π M) (mic : Aggregate M μ) (w : Bridge π M μ) (buffers : List ConstBuffer) :
    ∃ w', w.receiveAll lib mic buffers = some w' := by
  induction buffers generalizing w with
  | nil => exact ⟨w, rfl⟩
  | cons buffer buffers ih =>
    obtain ⟨w₁, h₁⟩ := receive_returns lib mic w buffer
    rw [receiveAll_cons, h₁]
    exact ih w₁

/-- What a stream does, however it is cut into buffers. -/
theorem receiveAll_received {w w' : Bridge π M μ} {buffers : List ConstBuffer}
    (h : w.receiveAll lib mic buffers = some w') : Received lib mic w (concat buffers) w' := by
  induction buffers generalizing w with
  | nil =>
    obtain rfl := Option.some_inj.mp h
    exact .refl w
  | cons buffer buffers ih =>
    rw [receiveAll_cons, Option.bind_eq_some_iff] at h
    obtain ⟨w₁, h₁, h⟩ := h
    exact (receive_received h₁).trans (ih h)

/-- The stream cut in two ways ends in the same messages, responses and forwarded bytes. -/
structure SameEnd (w w' : Bridge π M μ) : Prop where
  handed : w.dispatcher.handed = w'.dispatcher.handed
  responses : w.responses = w'.responses
  forwarded : w.forwarded = w'.forwarded

/-- What comes of the stream does not depend on where its buffers end. -/
def ChunkIndependent (lib : Mavlink π M) (mic : Aggregate M μ) (w : Bridge π M μ) (stream : List UInt8) : Prop :=
  ∀ buffers buffers', concat buffers = stream → concat buffers' = stream →
    ∃ w₁ w₂, w.receiveAll lib mic buffers = some w₁ ∧ w.receiveAll lib mic buffers' = some w₂ ∧ SameEnd w₁ w₂

/-- The messages of the stream, as they are handled. -/
def handledIn (lib : Mavlink π M) (mic : Aggregate M μ) (w : Bridge π M μ) (stream : List UInt8) : List (Handled M) :=
  (feed (byteStep lib mic) w.dispatcher.state stream).2

def taken (hs : List (Handled M)) : List (Handled M) := hs.filter fun h => h.ret != .ignored

/-- The library's parser: no message is complete with its first byte, and behind a
    message the parser waits for the next. -/
structure Framing (lib : Mavlink π M) (fresh : π → Prop) : Prop where
  short : ∀ p b, fresh p → (lib.frameCharBuffer p b).2 = none
  next : ∀ p b m, (lib.frameCharBuffer p b).2 = some m → fresh (lib.frameCharBuffer p b).1

/-- Received byte by byte, the stream is forwarded but for the last byte of every message taken. -/
theorem bytewise (lib : Mavlink π M) (mic : Aggregate M μ) (w : Bridge π M μ) (stream : List UInt8) : ∃ w',
    w.receiveAll lib mic (stream.map fun b => ⟨0, [b]⟩) = some w' ∧
      w'.forwarded.length + (taken (handledIn lib mic w stream)).length = w.forwarded.length + stream.length := by
  induction stream generalizing w with
  | nil => exact ⟨w, rfl, rfl⟩
  | cons b stream ih =>
    obtain ⟨w₁, h₁⟩ := receive_returns lib mic w ⟨0, [b]⟩
    obtain ⟨w', hw', hlen⟩ := ih w₁
    refine ⟨w', by rw [List.map_cons, receiveAll_cons, h₁]; exact hw', ?_⟩
    have hreads : w.dispatcher.reads lib mic ⟨0, [b]⟩ =
        (1, (byteStep lib mic w.dispatcher.state b).1, (byteStep lib mic w.dispatcher.state b).2) := by
      rw [Dispatcher.reads, readOne]
      rcases byteStep lib mic w.dispatcher.state b with ⟨s, _ | o⟩ <;> rfl
    have hfwd := receive_whole h₁ (by rw [hreads]; rfl)
    have hstate := (receive_received h₁).state
    rw [hreads] at hfwd
    unfold handledIn at hlen ⊢
    simp only [feed] at hstate ⊢
    rw [hstate] at hlen
    rw [hfwd] at hlen
    rcases hstep : (byteStep lib mic w.dispatcher.state b).2 with _ | h
    · rw [hstep] at hlen
      simp [passes, taken] at hlen ⊢
      omega
    · rw [hstep] at hlen
      by_cases hp : h.ret = .ignored
      · simp [passes, taken, hp] at hlen ⊢
        omega
      · simp [passes, taken, hp] at hlen ⊢
        omega

theorem byteStep_short (mic : Aggregate M μ) {fresh : π → Prop} (hf : Framing lib fresh) (s : π × μ) (b : UInt8)
    (hs : fresh s.1) : (byteStep lib mic s b).2 = none := by
  have h := hf.short s.1 b hs
  unfold byteStep
  rcases hstep : lib.frameCharBuffer s.1 b with ⟨p, _ | m⟩
  · rfl
  · rw [hstep] at h
    cases h

theorem byteStep_next (mic : Aggregate M μ) {fresh : π → Prop} (hf : Framing lib fresh) (s : π × μ) (b : UInt8)
    (o : Handled M) (ho : (byteStep lib mic s b).2 = some o) : fresh (byteStep lib mic s b).1.1 := by
  unfold byteStep at ho ⊢
  rcases hstep : lib.frameCharBuffer s.1 b with ⟨p, _ | m⟩
  · rw [hstep] at ho
    cases ho
  · have h := hf.next s.1 b m (by rw [hstep])
    rw [hstep] at h
    exact h

/-- Received message by message, the bytes of every message taken are withheld, two of them at least. -/
theorem framewise (mic : Aggregate M μ) {fresh : π → Prop} (hf : Framing lib fresh) (n : Nat) (w : Bridge π M μ)
    (stream : List UInt8) (hn : stream.length ≤ n) (hw : fresh w.dispatcher.unmarshalling.input) :
    ∃ buffers w', concat buffers = stream ∧
      w.receiveAll lib mic buffers = some w' ∧
      w'.forwarded.length + 2 * (taken (handledIn lib mic w stream)).length ≤ w.forwarded.length + stream.length := by
  induction n generalizing w stream with
  | zero =>
    obtain rfl := List.eq_nil_of_length_eq_zero (Nat.le_zero.mp hn)
    exact ⟨[], w, rfl, rfl, Nat.le_refl _⟩
  | succ n ih =>
    by_cases hne : stream = []
    · subst hne
      exact ⟨[], w, rfl, rfl, Nat.le_refl _⟩
    -- the first message, and what is left of the stream
    have hle := readOne_le (byteStep lib mic) w.dispatcher.state stream
    have hpos := readOne_pos (byteStep lib mic) w.dispatcher.state hne
    have hfeed := feed_readOne (byteStep lib mic) w.dispatcher.state stream
    have hshort := byteStep_short mic hf
    have hnext := byteStep_next mic hf
    have htwo : ∀ o, (readOne (byteStep lib mic) w.dispatcher.state stream).2.2 = some o →
        2 ≤ (readOne (byteStep lib mic) w.dispatcher.state stream).1 :=
      fun _ ho => readOne_two (byteStep lib mic) (fun s : π × μ => fresh s.1) hshort hw ho
    have hfresh : ∀ o, (readOne (byteStep lib mic) w.dispatcher.state stream).2.2 = some o →
        fresh (readOne (byteStep lib mic) w.dispatcher.state stream).2.1.1 :=
      fun _ ho => readOne_output (byteStep lib mic) (fun s : π × μ => fresh s.1) hnext ho
    have hnone : (readOne (byteStep lib mic) w.dispatcher.state stream).2.2 = none →
        (readOne (byteStep lib mic) w.dispatcher.state stream).1 = stream.length := readOne_of_none (byteStep lib mic)
    have hreads : w.dispatcher.reads lib mic ⟨0, stream.take (readOne (byteStep lib mic) w.dispatcher.state stream).1⟩ =
        readOne (byteStep lib mic) w.dispatcher.state stream := readOne_take _ _ _
    generalize readOne (byteStep lib mic) w.dispatcher.state stream = r at *
    obtain ⟨w₁, h₁⟩ := receive_returns lib mic w ⟨0, stream.take r.1⟩
    have hfwd := receive_whole h₁ (by
      rw [hreads, ConstBuffer.size]
      dsimp only
      rw [List.length_take, Nat.min_eq_left hle])
    have hstate : w₁.dispatcher.state = r.2.1 := by
      rw [(receive_received h₁).state]
      have htake := feed_take_readOne (byteStep lib mic) w.dispatcher.state (stream.take r.1)
      rw [show readOne (byteStep lib mic) w.dispatcher.state (stream.take r.1) = r from hreads, List.take_take, Nat.min_self]
        at htake
      rw [htake]
    rw [hreads] at hfwd
    have hhandled : handledIn lib mic w stream = r.2.2.toList ++ handledIn lib mic w₁ (stream.drop r.1) := by
      rw [handledIn, handledIn, hfeed, hstate]
    cases ho : r.2.2 with
    | none =>
      rw [hhandled, ho, hnone ho, List.drop_length]
      refine ⟨[⟨0, stream.take r.1⟩], w₁, ?_, by rw [receiveAll_cons, h₁]; rfl, ?_⟩
      · simp [concat, hnone ho]
      · rw [hfwd, ho, hnone ho]
        simp [passes, handledIn, feed, taken]
    | some h =>
      have hw₁ : fresh w₁.dispatcher.unmarshalling.input := by
        have := hfresh h ho
        rw [← hstate] at this
        exact this
      obtain ⟨buffers, w', hcat, hrun, hlen⟩ := ih w₁ (stream.drop r.1) (by rw [List.length_drop]; omega) hw₁
      refine ⟨⟨0, stream.take r.1⟩ :: buffers, w', ?_, by rw [receiveAll_cons, h₁]; exact hrun, ?_⟩
      · rw [concat, List.flatMap_cons, ← concat, hcat, List.take_append_drop]
      · have h2 := htwo h ho
        rw [hhandled, ho]
        rw [hfwd, ho, List.length_append] at hlen
        rw [List.length_drop] at hlen
        by_cases hp : h.ret = .ignored
        · simp [passes, taken, hp] at hlen ⊢
          omega
        · simp [passes, taken, hp] at hlen ⊢
          omega

/-- What the microservices are handed and what is responded never depends on the cut. -/
theorem received_independent {w w₁ w₂ : Bridge π M μ} {buffers buffers' : List ConstBuffer}
    (hcat : concat buffers = concat buffers') (h₁ : w.receiveAll lib mic buffers = some w₁)
    (h₂ : w.receiveAll lib mic buffers' = some w₂) :
    w₁.dispatcher.state = w₂.dispatcher.state ∧ w₁.dispatcher.handed = w₂.dispatcher.handed ∧ w₁.responses = w₂.responses := by
  have hr₁ := receiveAll_received h₁
  have hr₂ := receiveAll_received h₂
  rw [hcat] at hr₁
  exact ⟨hr₁.state.trans hr₂.state.symm, hr₁.handed.trans hr₂.handed.symm, hr₁.responses.trans hr₂.responses.symm⟩

/-- **Chunk independence.** What comes of a stream depends on where its buffers end
    unless the microservices take none of its messages. -/
theorem chunk_independent_iff {fresh : π → Prop} (hf : Framing lib fresh) {w : Bridge π M μ}
    (hw : fresh w.dispatcher.unmarshalling.input) (stream : List UInt8) :
    ChunkIndependent lib mic w stream ↔ taken (handledIn lib mic w stream) = [] := by
  constructor
  · intro h
    obtain ⟨w₁, hrun₁, hlen₁⟩ := bytewise lib mic w stream
    obtain ⟨buffers, w₂, hcat, hrun₂, hlen₂⟩ := framewise mic hf stream.length w stream (Nat.le_refl _) hw
    have hbytes : concat (stream.map fun b => ⟨0, [b]⟩) = stream := by simp [concat, List.flatMap_map]
    obtain ⟨v₁, v₂, h₁, h₂, hsame⟩ := h _ buffers hbytes hcat
    obtain rfl := Option.some_inj.mp (hrun₁.symm.trans h₁)
    obtain rfl := Option.some_inj.mp (hrun₂.symm.trans h₂)
    have := congrArg List.length hsame.forwarded
    exact List.eq_nil_of_length_eq_zero (by omega)
  · intro hnone buffers buffers' hcat hcat'
    obtain ⟨w₁, h₁⟩ := receiveAll_returns lib mic w buffers
    obtain ⟨w₂, h₂⟩ := receiveAll_returns lib mic w buffers'
    obtain ⟨_, hhanded, hresponses⟩ := received_independent (hcat.trans hcat'.symm) h₁ h₂
    have hall : ∀ h ∈ handledIn lib mic w stream, h.ret = .ignored := by
      intro h hh
      have := List.filter_eq_nil_iff.mp hnone h hh
      simpa using this
    have hf₁ := (receiveAll_received h₁).passed (by rw [hcat]; exact hall)
    have hf₂ := (receiveAll_received h₂).passed (by rw [hcat']; exact hall)
    exact ⟨w₁, w₂, h₁, h₂, hhanded, hresponses, by rw [hf₁, hf₂, hcat, hcat']⟩

end

/-! ## File transfer messages on the wire -/

/-- One byte of the checksum of a frame. -/
def crcAccumulate (crc : UInt16) (data : UInt8) : UInt16 :=
  let tmp := data ^^^ crc.toUInt8
  let tmp := tmp ^^^ (tmp <<< 4)
  (crc >>> 8) ^^^ (tmp.toUInt16 <<< 8) ^^^ (tmp.toUInt16 <<< 3) ^^^ (tmp.toUInt16 >>> 4)

/-- The checksum behind a frame of the file transfer protocol. -/
def frameChecksum (body : List UInt8) : List UInt8 :=
  let crc := List.foldl crcAccumulate 0xFFFF (body ++ [84])
  [crc.toUInt8, (crc >>> 8).toUInt8]

/-- The message in the payload of a frame, from which trailing zeros are cut. -/
def decodeFileTransferProtocol (payload : List UInt8) : FileTransferProtocol :=
  let byte i := payload.getD i 0
  { targetNetwork := byte 0
    targetSystem := byte 1
    targetComponent := byte 2
    payload :=
      { seqNumber := (byte 3).toUInt16 + (byte 4).toUInt16 <<< 8
        session := byte 5
        opcode := byte 6
        size := byte 7
        reqOpcode := byte 8
        offset := (byte 11).toNat + 256 * (byte 12).toNat + 65536 * (byte 13).toNat + 16777216 * (byte 14).toNat
        data := (payload.drop 15).take (byte 7).toNat } }

/-- A parser of second-version frames without a signature, of messages of the file transfer
    protocol; its state is the frame so far. -/
def ftpFrameCharBuffer (frame : List UInt8) (ch : UInt8) : List UInt8 × Option MavlinkMessage :=
  if frame = [] then (if ch = 0xFD then [ch] else [], none)
  else
    let frame := frame ++ [ch]
    if frame.length = 12 + (frame.getD 1 0).toNat then
      let body := (frame.drop 1).take (frame.length - 3)
      if frame.drop (frame.length - 2) = frameChecksum body ∧ (body.drop 6).take 3 = [110, 0, 0] then
        ([], some (.fileTransferProtocol (decodeFileTransferProtocol (body.drop 9))))
      else ([], none)
    else (frame, none)

def ftpMavlink : Mavlink (List UInt8) MavlinkMessage := ⟨ftpFrameCharBuffer, fun _ => []⟩

theorem ftpMavlink_framing : Framing ftpMavlink (· = []) where
  short p b hp := by
    subst hp
    show (ftpFrameCharBuffer [] b).2 = none
    rw [ftpFrameCharBuffer, if_pos rfl]
  next p b m h := by
    have h' : (ftpFrameCharBuffer p b).2 = some m := h
    show (ftpFrameCharBuffer p b).1 = []
    unfold ftpFrameCharBuffer at h' ⊢
    split at h'
    · cases h'
    · rename_i hp
      rw [if_neg hp]
      dsimp only at h' ⊢
      split at h'
      · rename_i hlen
        rw [if_pos hlen]
        split <;> rfl
      · cases h'

def ftpAggregate : Aggregate MavlinkMessage BftFtpClient :=
  fun c m => ((c.process m).1, (c.process m).2, (c.process m).1.sent.drop c.sent.length)

def waitingBridge : Bridge (List UInt8) MavlinkMessage BftFtpClient := .init [] BftFtpClient.waitingClient

/-- A message to another component. -/
def foreignFrame : List UInt8 := [253, 3, 0, 0, 0, 1, 1, 110, 0, 0, 0, 1, 1, 160, 135]

theorem a_foreign_message_is_chunk_independent : ChunkIndependent ftpMavlink ftpAggregate waitingBridge foreignFrame :=
  (chunk_independent_iff ftpMavlink_framing rfl foreignFrame).mpr (List.eq_nil_of_length_eq_zero (by decide +kernel))

/-- A message to this component. -/
def ownFrame : List UInt8 := [253, 3, 0, 0, 0, 1, 1, 110, 0, 0, 0, 1, 240, 112, 226]

/-- Received in one buffer it is withheld; cut behind its first byte, the first byte is forwarded. -/
theorem a_cut_message_is_forwarded_in_part : ¬ ChunkIndependent ftpMavlink ftpAggregate waitingBridge ownFrame := by
  intro h
  obtain ⟨w₁, w₂, h₁, h₂, hsame⟩ := h [⟨0, ownFrame⟩] [⟨0, ownFrame.take 1⟩, ⟨1, ownFrame.drop 1⟩] rfl rfl
  have hwhole : (waitingBridge.receiveAll ftpMavlink ftpAggregate [⟨0, ownFrame⟩]).map Bridge.forwarded = some [] := by
    decide +kernel
  have hcut : (waitingBridge.receiveAll ftpMavlink ftpAggregate
      [⟨0, ownFrame.take 1⟩, ⟨1, ownFrame.drop 1⟩]).map Bridge.forwarded = some [253] := by
    decide +kernel
  rw [h₁, Option.map_some, hsame.forwarded] at hwhole
  rw [h₂, Option.map_some] at hcut
  rw [hcut] at hwhole
  cases hwhole

end Esp32Cam.Mav
