/-
  Esp32Cam.Bft.HttpFetch — a file that is fetched over HTTP and handed on.

  `fetchFile` opens the one file the flushing file system has, and runs the HTTP client to
  its end: data is appended, the end of it is notified of, and the file is let go of with
  that, which closes it. The end is what the client says when it is done, or a header that
  announces no length. Nothing else closes the file, and the next call opens its own before
  it lets go of the one it finds.

  A second end is notified of without a file, on which every implementor panics; data behind
  an end is appended to no file. Below, the RAM file system does not open a file for a second
  time (`a_closed_file_is_never_opened_again`), so the first file that is fetched is the
  last one (`the_next_file_is_not_opened`).

  `fetches_iff`: which calls keep the promise, in any run of them.
-/

import Esp32Cam.Bft.FlushingAppend
import Esp32Cam.Lib.PartialRun
import Esp32Cam.Mav.BufferedFileTransfer

namespace Esp32Cam.Bft

open Esp32Cam.Lib
open Esp32Cam.Mav.BufferedFileTransfer (HttpEvent Download EspErr atoi kContentLength)

inductive Halt where
  | stopped (stop : Stop)
  | nullptr
  deriving DecidableEq, Repr

/-- What comes of the events: data that has been appended, and `onFileBufferingFinished` with `isLast`. -/
inductive Happening where
  | appended (chunk : List UInt8)
  | finished
  deriving DecidableEq, Repr

/-- The pointer to the file, and the file system behind `BufferedFileTransfer` with its subscribers. -/
structure HttpFetch (σ : Type) where
  session : Session σ
  bftFile : Option File := none

namespace HttpFetch

variable {σ : Type}

structure Progress (σ : Type) where
  http : HttpFetch σ
  happenings : List Happening := []
  halt : Option Halt := none

/-- A call: whether there is a file system, the name of the file, what `new` answers, and what the client does. -/
structure Call where
  bufferedFileTransferInstance : Bool := true
  fileName : List UInt8
  new : Allocation
  download : Download
  deriving DecidableEq, Repr

/-- `result` is what the download returned, where the call returns. -/
structure Fetched (σ : Type) where
  http : HttpFetch σ
  opened : Bool := false
  happenings : List Happening := []
  result : Option EspErr := none

def kBufferSizeHint : Nat := 20 * 1024

/-- The pointer is reset, and its deleter closes the file. -/
def release (h : HttpFetch σ) : HttpFetch σ :=
  match h.bftFile with
  | some file =>
    { session := if file.isValid then { h.session with fs := h.session.fs.closeFile file.fileDescriptor } else h.session
      bftFile := none }
  | none => h

section
variable (subscriber : Subscriber σ)

def onFileChunkReceived (h : HttpFetch σ) (aChunk : Option (List UInt8)) (aChunkSize : Nat) : Progress σ :=
  match aChunk with
  | none =>
    -- the size of the file
    if aChunkSize ≠ 0 then { http := h }
    else match h.bftFile with
      | some file =>
        let session := h.session.notifyAllOnFileBufferingFinished subscriber file true
        { http := release { h with session }, happenings := [.finished] }
      | none => { http := h, happenings := [.finished], halt := some (.stopped .panicked) }
  | some chunk =>
    if aChunkSize ≠ 0 then
      match h.bftFile with
      | some file =>
        match h.session.append subscriber file.fileDescriptor chunk with
        | .ok (session, nAppended) => { http := { h with session }, happenings := [.appended (chunk.take nAppended)] }
        | .error stop => { http := h, halt := some (.stopped stop) }
      | none => { http := h, halt := some .nullptr }
    else { http := h }

/-- What the client makes of the answers to its events is in which comes next. -/
def httpDownloadFileOverHttpGetEventHandler (h : HttpFetch σ) : HttpEvent → Progress σ
  | .onFinish => h.onFileChunkReceived subscriber none 0
  | .onData data => h.onFileChunkReceived subscriber (some data) data.length
  | .onHeader key value _ _ =>
    if key = kContentLength then h.onFileChunkReceived subscriber none (uint32 (atoi value)) else { http := h }
  | .onConnected => { http := h }
  | .disconnected => { http := h }
  | .error => { http := h }
  | .other => { http := h }

def Progress.behind (happenings : List Happening) (p : Progress σ) : Progress σ :=
  { p with happenings := happenings ++ p.happenings }

def handleEvents (h : HttpFetch σ) : List HttpEvent → Progress σ
  | [] => { http := h }
  | e :: events =>
    let p := h.httpDownloadFileOverHttpGetEventHandler subscriber e
    if p.halt.isSome then p else (handleEvents p.http events).behind p.happenings

def httpDownloadFileOverHttpGetByUrl (h : HttpFetch σ) (d : Download) : Progress σ × EspErr :=
  if !d.initialized then ({ http := h }, .fail) else (h.handleEvents subscriber d.events, d.espErr)

/-- The file is opened, and then the one of the call before is let go of. -/
def fetchFile (h : HttpFetch σ) (c : Call) : Fetched σ :=
  if !c.bufferedFileTransferInstance then { http := h }
  else
    let (fs, fd) := h.session.fs.tryOpenFileWriteBinary c.fileName kBufferSizeHint c.new
    let file := File.new fd c.fileName
    let h := { release { h with session := { h.session with fs } } with bftFile := some file }
    if !file.isValid then { http := h }
    else
      let (p, espErr) := h.httpDownloadFileOverHttpGetByUrl subscriber c.download
      { http := p.http, opened := true, happenings := p.happenings, result := if p.halt.isSome then none else some espErr }

def step (h : HttpFetch σ) (c : Call) : Option (HttpFetch σ) :=
  let r := h.fetchFile subscriber c
  r.result.map fun _ => r.http

end

def start (subscribers : σ) : HttpFetch σ := { session := ⟨.init .init, subscribers, []⟩ }

/-! ## What is promised -/

inductive Received where
  | chunk (data : List UInt8)
  | finish
  deriving DecidableEq, Repr

def received : HttpEvent → Option Received
  | .onFinish => some .finish
  | .onData data => if data = [] then none else some (.chunk data)
  | .onHeader key value _ _ => if key = kContentLength ∧ uint32 (atoi value) = 0 then some .finish else none
  | _ => none

def Received.chunk? : Received → Option (List UInt8)
  | .chunk data => some data
  | .finish => none

def Call.received (c : Call) : List Received := c.download.events.filterMap HttpFetch.received

def Call.chunks (c : Call) : List (List UInt8) := c.received.filterMap Received.chunk?

/-- A file is opened where there is memory for it. A download that succeeds is notified of once,
    behind all of its chunks, and no other is; a call that returns leaves no session open. -/
structure AsPromised (subscriber : Subscriber σ) (h : HttpFetch σ) (c : Call) : Prop where
  opens : c.bufferedFileTransferInstance = true → c.new.pointer ≠ 0 → (h.fetchFile subscriber c).opened = true
  succeeded : (h.fetchFile subscriber c).result = some .ok →
    (h.fetchFile subscriber c).happenings = c.chunks.map .appended ++ [.finished]
  failed : (h.fetchFile subscriber c).result ≠ some .ok → .finished ∉ (h.fetchFile subscriber c).happenings
  closed : (h.fetchFile subscriber c).result.isSome = true → (h.fetchFile subscriber c).http.session.fs.bufferFile = none

/-- The download succeeds, and what comes last is the one end. -/
def Call.Completes (c : Call) : Prop :=
  c.download.initialized = true ∧ c.download.espErr = .ok ∧ ∃ before, c.received = before ++ [.finish] ∧ .finish ∉ before

/-- Where there is memory, this is the first file, and its download completes. -/
def Admissible (h : HttpFetch σ) (c : Call) : Prop :=
  c.bufferedFileTransferInstance = true → c.new.pointer ≠ 0 → h.session.ram.memoryPool = 0 ∧ c.Completes

/-! ## Events -/

section
variable {subscriber : Subscriber σ} {h : HttpFetch σ} {c : Call}

variable (subscriber) in
def receive (h : HttpFetch σ) : Received → Progress σ
  | .chunk data => h.onFileChunkReceived subscriber (some data) data.length
  | .finish => h.onFileChunkReceived subscriber none 0

variable (subscriber) in
def receiveAll (h : HttpFetch σ) : List Received → Progress σ
  | [] => { http := h }
  | r :: rs =>
    let p := h.receive subscriber r
    if p.halt.isSome then p else (receiveAll p.http rs).behind p.happenings

theorem handler_eq (h : HttpFetch σ) (e : HttpEvent) : h.httpDownloadFileOverHttpGetEventHandler subscriber e =
    match received e with
    | some r => h.receive subscriber r
    | none => { http := h } := by
  cases e with
  | onFinish => rfl
  | onData data =>
    cases data with
    | nil => rfl
    | cons b data => simp [httpDownloadFileOverHttpGetEventHandler, received, receive]
  | onHeader key value new representation =>
    simp only [httpDownloadFileOverHttpGetEventHandler, received]
    by_cases hkey : key = kContentLength
    · by_cases hzero : uint32 (atoi value) = 0
      · simp [hkey, hzero, receive]
      · simp [hkey, hzero, onFileChunkReceived]
    · simp [hkey]
  | onConnected => rfl
  | disconnected => rfl
  | error => rfl
  | other => rfl

theorem handleEvents_eq (h : HttpFetch σ) (events : List HttpEvent) :
    h.handleEvents subscriber events = h.receiveAll subscriber (events.filterMap received) := by
  induction events generalizing h with
  | nil => rfl
  | cons e events ih =>
    rw [handleEvents, handler_eq, List.filterMap_cons]
    cases hreceived : received e with
    | none =>
      simp only [Option.isSome_none, Bool.false_eq_true, if_false, ih]
      rfl
    | some r =>
      rw [receiveAll]
      simp only [ih]

theorem chunk_ne_nil {data : List UInt8} (hmem : .chunk data ∈ c.received) : data ≠ [] := by
  obtain ⟨e, -, he⟩ := List.mem_filterMap.mp hmem
  cases e with
  | onData data' =>
    simp only [received] at he
    split at he
    · cases he
    · rename_i hne
      cases he
      exact hne
  | onHeader key value new representation =>
    simp only [received] at he
    split at he
    · cases he
    · cases he
  | _ => cases he

/-! ## While the file is open, and when it is let go of -/

structure Open (h : HttpFetch σ) : Prop where
  opened : ∃ file, h.bftFile = some file ∧ Opened h.session file kBufferSizeHint

/-- No session, no file, and a cursor at its start. -/
structure Idle (h : HttpFetch σ) : Prop where
  bufferFile : h.session.fs.bufferFile = none
  bftFile : h.bftFile = none
  cursor : h.session.ram.memoryPoolCurrentPosition = 0

theorem Open.memoryPool_ne (ho : Open h) : h.session.ram.memoryPool ≠ 0 := by
  obtain ⟨file, -, hopened⟩ := ho.opened
  rw [← hopened.descriptor]
  simpa [FileDescriptor.isValid] using hopened.valid

theorem Open.bufferFile_ne (ho : Open h) : h.session.fs.bufferFile ≠ none := by
  obtain ⟨file, -, hopened⟩ := ho.opened
  rw [hopened.bufferFile]
  exact Option.some_ne_none file

theorem receive_chunk (hmoves : subscriber.OnlyMoves) (ho : Open h) {data : List UInt8} (hdata : data ≠ []) :
    ∃ h', h.receive subscriber (.chunk data) = { http := h', happenings := [.appended data] } ∧ Open h' := by
  obtain ⟨file, hfile, hopened⟩ := ho.opened
  obtain ⟨session, hrun, hopened', -, -⟩ := Session.append_ok hopened hmoves data
  have hlength : data.length ≠ 0 := fun hzero => hdata (List.eq_nil_of_length_eq_zero hzero)
  refine ⟨{ h with session }, ?_, ⟨file, hfile, hopened'⟩⟩
  simp only [receive, onFileChunkReceived, if_pos hlength, hfile, hrun, List.take_length]

/-- The file is closed on both layers, and the address of its pool stays. -/
theorem receive_finish (hmoves : subscriber.OnlyMoves) (ho : Open h) :
    ∃ h', h.receive subscriber .finish = { http := h', happenings := [.finished] } ∧ Idle h' ∧
      h'.session.ram.memoryPool = h.session.ram.memoryPool := by
  obtain ⟨file, hfile, hopened⟩ := ho.opened
  obtain ⟨cursor, hcursor⟩ := hmoves h.session.subscribers h.session.ram file true
  have hvalid : file.isValid = true := by simp [File.isValid, hopened.valid, hopened.fileSystem]
  have hfd : file.fileDescriptor.raw = h.session.ram.memoryPool := hopened.descriptor
  have hfile' : h.session.fs.bufferFile = some file := hopened.bufferFile
  have hclosed : (h.session.notifyAllOnFileBufferingFinished subscriber file true).fs.closeFile file.fileDescriptor =
      ⟨{ h.session.ram with pool := [], memoryPoolNextWritePosition := 0, memoryPoolCurrentPosition := 0 }, none⟩ := by
    simp only [Session.notifyAllOnFileBufferingFinished, Session.setRam, hcursor, FlushingBufferFileSystem.closeFile, hfile',
      if_true, File.close, hvalid, SingleBufferRamFileSystem.closeFile, hfd, hopened.valid, and_self]
  have hreleased : release { h with session := h.session.notifyAllOnFileBufferingFinished subscriber file true } =
      { session := { h.session.notifyAllOnFileBufferingFinished subscriber file true with
          fs := ⟨{ h.session.ram with pool := [], memoryPoolNextWritePosition := 0, memoryPoolCurrentPosition := 0 }, none⟩ }
        bftFile := none } := by
    simp only [release, hfile, hvalid, if_true, hclosed]
  refine ⟨release { h with session := h.session.notifyAllOnFileBufferingFinished subscriber file true }, ?_, ?_⟩
  · simp [receive, onFileChunkReceived, hfile]
  · rw [hreleased]
    exact ⟨⟨rfl, rfl, rfl⟩, rfl⟩

theorem Progress.behind_behind (hs hs' : List Happening) (p : Progress σ) :
    (p.behind hs').behind hs = p.behind (hs ++ hs') := by
  simp [Progress.behind]

/-- Data is appended, and the file stays open. -/
theorem receiveAll_chunks (hmoves : subscriber.OnlyMoves) {before : List Received} (hfinish : .finish ∉ before)
    (hchunks : ∀ data, .chunk data ∈ before → data ≠ []) (ho : Open h) :
    ∃ h', Open h' ∧ ∀ rest, h.receiveAll subscriber (before ++ rest) =
      (h'.receiveAll subscriber rest).behind ((before.filterMap Received.chunk?).map .appended) := by
  induction before generalizing h with
  | nil => exact ⟨h, ho, fun rest => rfl⟩
  | cons r before ih =>
    cases r with
    | finish => exact absurd (List.mem_cons_self ..) hfinish
    | chunk data =>
      obtain ⟨h₁, hreceive, ho₁⟩ := receive_chunk hmoves ho (hchunks data (List.mem_cons_self ..))
      obtain ⟨h₂, ho₂, hrest⟩ := ih (fun hmem => hfinish (List.mem_cons_of_mem _ hmem))
        (fun data hmem => hchunks data (List.mem_cons_of_mem _ hmem)) ho₁
      refine ⟨h₂, ho₂, fun rest => ?_⟩
      rw [List.cons_append, receiveAll, hreceive]
      simp only [Option.isSome_none, Bool.false_eq_true, if_false, hrest, Progress.behind_behind]
      rfl

/-- Behind the end, there is no file for anything that is received. -/
theorem receive_idle (hi : h.bftFile = none) {r : Received} (hchunk : ∀ data, r = .chunk data → data ≠ []) :
    (h.receive subscriber r).halt.isSome = true := by
  cases r with
  | finish => simp [receive, onFileChunkReceived, hi]
  | chunk data =>
    have hlength : data.length ≠ 0 := fun hzero => hchunk data rfl (List.eq_nil_of_length_eq_zero hzero)
    simp [receive, onFileChunkReceived, hi, hlength]

/-! ## A call -/

/-- A call that opens no file does not return. -/
theorem fetchFile_of_refused (hi : Idle h)
    (hrefused : ¬ (c.bufferedFileTransferInstance = true ∧ CanOpen h.session.ram kBufferSizeHint c.new)) :
    ∃ h', h.fetchFile subscriber c = { http := h' } := by
  unfold fetchFile
  by_cases hinstance : c.bufferedFileTransferInstance = true
  · have hopen := SingleBufferRamFileSystem.tryOpen_refused fun hopens => hrefused ⟨hinstance, hopens⟩
    change h.session.fs.bufferFileSystem.tryOpenFileWriteBinary kBufferSizeHint c.new = _ at hopen
    simp [hinstance, FlushingBufferFileSystem.tryOpenFileWriteBinary, hi.bufferFile, hopen, FileDescriptor.isValid,
      File.isValid, File.new]
  · exact ⟨h, by simp [hinstance]⟩

/-- The file is open, and the client runs. -/
theorem fetchFile_of_opens (hi : Idle h) (hinstance : c.bufferedFileTransferInstance = true)
    (hopens : CanOpen h.session.ram kBufferSizeHint c.new) : ∃ h', Open h' ∧
      h.fetchFile subscriber c =
        { http := (h'.httpDownloadFileOverHttpGetByUrl subscriber c.download).1.http
          opened := true
          happenings := (h'.httpDownloadFileOverHttpGetByUrl subscriber c.download).1.happenings
          result := if (h'.httpDownloadFileOverHttpGetByUrl subscriber c.download).1.halt.isSome then none
            else some (h'.httpDownloadFileOverHttpGetByUrl subscriber c.download).2 } := by
  obtain ⟨hfd, hopened, -⟩ := @Session.opened_of_tryOpen _ h.session c.fileName _ _ hi.bufferFile hi.cursor hopens
  have hvalid : (File.new ⟨c.new.pointer⟩ c.fileName).isValid = true := File.isValid_iff.mpr ⟨hopens.2.2, rfl⟩
  refine ⟨{ session := { h.session with fs := (h.session.fs.tryOpenFileWriteBinary c.fileName kBufferSizeHint c.new).1 }
            bftFile := some (File.new ⟨c.new.pointer⟩ c.fileName) }, ⟨_, rfl, hopened⟩, ?_⟩
  unfold fetchFile
  simp only [hinstance, Bool.not_true, Bool.false_eq_true, if_false, hfd, hvalid, release, hi.bftFile]

/-- The download succeeds exactly where its end comes, and nothing behind it. -/
theorem receiveAll_cases (hmoves : subscriber.OnlyMoves) (ho : Open h) (c : Call) :
    (.finish ∉ c.received ∧ (h.receiveAll subscriber c.received).halt = none ∧
      Open (h.receiveAll subscriber c.received).http) ∨
    ((∃ before, c.received = before ++ [.finish] ∧ .finish ∉ before) ∧ ∃ h', Idle h' ∧ h'.session.ram.memoryPool ≠ 0 ∧
      h.receiveAll subscriber c.received = { http := h', happenings := c.chunks.map .appended ++ [.finished] }) ∨
    ((¬ ∃ before, c.received = before ++ [.finish] ∧ .finish ∉ before) ∧
      (h.receiveAll subscriber c.received).halt.isSome = true ∧
      .finished ∈ (h.receiveAll subscriber c.received).happenings) := by
  have hchunks : ∀ data, .chunk data ∈ c.received → data ≠ [] := fun data => chunk_ne_nil
  by_cases hfinish : .finish ∈ c.received
  · right
    obtain ⟨before, behind, hsplit, hbefore⟩ := List.eq_append_cons_of_mem hfinish
    rw [hsplit] at hchunks
    obtain ⟨h₁, ho₁, hrest⟩ := receiveAll_chunks hmoves hbefore
      (fun data hmem => hchunks data (List.mem_append_left _ hmem)) ho
    obtain ⟨h₂, hreceive, hi₂, hpool⟩ := receive_finish hmoves ho₁
    rw [Call.chunks, hsplit, hrest, receiveAll, hreceive]
    cases behind with
    | nil =>
      left
      refine ⟨⟨before, rfl, hbefore⟩, h₂, hi₂, ?_, ?_⟩
      · rw [hpool]
        exact ho₁.memoryPool_ne
      · simp [receiveAll, Progress.behind, Received.chunk?]
    | cons r behind =>
      right
      have hhalt := @receive_idle _ subscriber h₂ hi₂.bftFile r fun data heq => hchunks data (by simp [heq])
      refine ⟨?_, ?_, ?_⟩
      · intro h
        rcases h with ⟨before', heq, hbefore'⟩
        have hlast := (List.append_cons_inj_of_notMem hbefore' (List.not_mem_nil)).mp heq.symm
        cases hlast.2.2
      · simp [receiveAll, hhalt, Progress.behind]
      · simp [Progress.behind]
  · left
    obtain ⟨h₁, ho₁, hrest⟩ := receiveAll_chunks hmoves hfinish hchunks ho
    have hall := hrest []
    rw [List.append_nil] at hall
    rw [hall]
    exact ⟨hfinish, rfl, ho₁⟩

/-- A call that returns with its file open leaves a session. -/
theorem not_asPromised_of_open {h' : HttpFetch σ} (ho : Open h') (hhttp : (h.fetchFile subscriber c).http = h')
    (hreturns : (h.fetchFile subscriber c).result.isSome = true) : ¬ AsPromised subscriber h c := by
  intro hpromised
  have hclosed := hpromised.closed hreturns
  rw [hhttp] at hclosed
  exact ho.bufferFile_ne hclosed

/-- A call whose file is opened keeps the promise exactly where its download completes, and leaves no file then. -/
theorem asPromised_iff_completes (hmoves : subscriber.OnlyMoves) (hi : Idle h)
    (hinstance : c.bufferedFileTransferInstance = true) (hopens : CanOpen h.session.ram kBufferSizeHint c.new) :
    (AsPromised subscriber h c ↔ c.Completes) ∧
      (c.Completes → ∃ h', h.step subscriber c = some h' ∧ Idle h' ∧ h'.session.ram.memoryPool ≠ 0) := by
  obtain ⟨h₁, ho₁, hfetch⟩ := fetchFile_of_opens hi hinstance hopens
  by_cases hinitialized : c.download.initialized = true
  · have hdownload : h₁.httpDownloadFileOverHttpGetByUrl subscriber c.download =
        (h₁.receiveAll subscriber c.received, c.download.espErr) := by
      simp [httpDownloadFileOverHttpGetByUrl, hinitialized, handleEvents_eq, Call.received]
    rw [hdownload] at hfetch
    rcases receiveAll_cases hmoves ho₁ c with ⟨hnot, hhalt, ho₂⟩ | ⟨hbefore, h₂, hi₂, hpool, hall⟩ | ⟨hnot, hhalt, hfinished⟩
    · have hcompletes : ¬ c.Completes := by
        intro hcompletes
        obtain ⟨before, heq, -⟩ := hcompletes.2.2
        rw [heq] at hnot
        exact hnot (by simp)
      refine ⟨iff_of_false ?_ hcompletes, fun h => absurd h hcompletes⟩
      exact not_asPromised_of_open ho₂ (by rw [hfetch]) (by simp [hfetch, hhalt])
    · rw [hall] at hfetch
      have hpromised : AsPromised subscriber h c ↔ c.download.espErr = .ok := by
        constructor
        · intro hp
          by_contra hne
          refine hp.failed ?_ ?_
          · simp [hfetch, hne]
          · simp [hfetch]
        · intro hok
          refine ⟨fun _ _ => by rw [hfetch], fun _ => by rw [hfetch], fun hne => ?_, fun _ => ?_⟩
          · simp [hfetch, hok] at hne
          · rw [hfetch]
            exact hi₂.bufferFile
      refine ⟨?_, fun _ => ⟨h₂, by simp [step, hfetch], hi₂, hpool⟩⟩
      rw [hpromised]
      exact ⟨fun hok => ⟨hinitialized, hok, hbefore⟩, fun hcompletes => hcompletes.2.1⟩
    · have hcompletes : ¬ c.Completes := fun hcompletes => hnot hcompletes.2.2
      refine ⟨iff_of_false ?_ hcompletes, fun h => absurd h hcompletes⟩
      intro hp
      refine hp.failed ?_ ?_
      · simp [hfetch, hhalt]
      · rw [hfetch]
        exact hfinished
  · have hcompletes : ¬ c.Completes := fun hcompletes => hinitialized hcompletes.1
    refine ⟨iff_of_false ?_ hcompletes, fun h => absurd h hcompletes⟩
    exact not_asPromised_of_open ho₁ (by simp [hfetch, httpDownloadFileOverHttpGetByUrl, hinitialized])
      (by simp [hfetch, httpDownloadFileOverHttpGetByUrl, hinitialized])

/-- Without a session, a call keeps the promise exactly where it is admissible. -/
theorem asPromised_iff (hmoves : subscriber.OnlyMoves) (hi : Idle h) (c : Call) :
    AsPromised subscriber h c ↔ Admissible h c := by
  by_cases hopens : c.bufferedFileTransferInstance = true ∧ CanOpen h.session.ram kBufferSizeHint c.new
  · obtain ⟨hinstance, hcan⟩ := hopens
    rw [(asPromised_iff_completes hmoves hi hinstance hcan).1]
    exact ⟨fun hcompletes _ _ => ⟨hcan.1, hcompletes⟩, fun hadmissible => (hadmissible hinstance hcan.2.2).2⟩
  · obtain ⟨h', hfetch⟩ := @fetchFile_of_refused _ subscriber _ _ hi hopens
    constructor
    · intro hp hinstance hnew
      have hopened := hp.opens hinstance hnew
      rw [hfetch] at hopened
      cases hopened
    · intro hadmissible
      refine ⟨fun hinstance hnew => ?_, fun hok => ?_, fun _ => ?_, fun hreturns => ?_⟩
      · exact absurd ⟨hinstance, (hadmissible hinstance hnew).1, by decide, hnew⟩ hopens
      · rw [hfetch] at hok
        cases hok
      · rw [hfetch]
        exact List.not_mem_nil
      · rw [hfetch] at hreturns
        cases hreturns

/-- An admissible call that returns has completed. -/
theorem step_of_admissible {h' : HttpFetch σ} (hmoves : subscriber.OnlyMoves) (hi : Idle h) (hadmissible : Admissible h c)
    (hstep : h.step subscriber c = some h') : Idle h' ∧ h'.session.ram.memoryPool ≠ 0 := by
  by_cases hopens : c.bufferedFileTransferInstance = true ∧ CanOpen h.session.ram kBufferSizeHint c.new
  · obtain ⟨hinstance, hcan⟩ := hopens
    have hcompletes := (hadmissible hinstance hcan.2.2).2
    obtain ⟨h'', hstep'', hi'', hpool⟩ := (asPromised_iff_completes hmoves hi hinstance hcan).2 hcompletes
    obtain rfl := Option.some_inj.mp (hstep''.symm.trans hstep)
    exact ⟨hi'', hpool⟩
  · obtain ⟨h'', hfetch⟩ := @fetchFile_of_refused _ subscriber _ _ hi hopens
    rw [step, hfetch] at hstep
    cases hstep

end

/-- Behind a file that has been fetched, none is opened any more. -/
theorem the_next_file_is_not_opened {subscriber : Subscriber σ} {h : HttpFetch σ} {c : Call} (hi : Idle h)
    (hpool : h.session.ram.memoryPool ≠ 0) :
    (h.fetchFile subscriber c).opened = false ∧ h.step subscriber c = none := by
  obtain ⟨h', hfetch⟩ := @fetchFile_of_refused _ subscriber _ c hi fun hopens => hpool hopens.2.1
  rw [step, hfetch]
  exact ⟨rfl, rfl⟩

/-- The calls of a run keep the promise, each in the state it finds, exactly as long as each is admissible
    there: where there is memory for its file, no file has been opened before, and its download
    succeeds with one end, which comes last. -/
theorem fetches_iff (subscriber : Subscriber σ) (hmoves : subscriber.OnlyMoves) (subscribers : σ) (calls : List Call) :
    PartialRun.Allowed (step subscriber) (AsPromised subscriber) (start subscribers) calls ↔
      PartialRun.Allowed (step subscriber) Admissible (start subscribers) calls := by
  have hi : Idle (start subscribers) := ⟨rfl, rfl, rfl⟩
  refine PartialRun.allowed_iff_allowed (I := Idle) ?_ (fun h c hidle => asPromised_iff hmoves hidle c) hi
  intro h c h' hstep hidle hadmissible
  exact (step_of_admissible hmoves hidle hadmissible hstep).1

/-- Two pieces of data, and the end. -/
def twoPieces : Call where
  fileName := [0x73, 0x68, 0x6F, 0x77]
  new := ⟨1, []⟩
  download := { events := [.onConnected, .onData [1, 2], .onData [3], .onFinish, .disconnected], espErr := .ok }

theorem the_first_file_is_fetched :
    PartialRun.Allowed (step Session.reader) (AsPromised Session.reader) (start []) [twoPieces] :=
  (fetches_iff Session.reader Session.reader_onlyMoves [] [twoPieces]).mpr
    ⟨fun _ _ => ⟨rfl, rfl, rfl, [.chunk [1, 2], .chunk [3]], rfl, by decide⟩, fun _ _ => trivial⟩

def connectionRefused : Call where
  fileName := [0x73, 0x68, 0x6F, 0x77]
  new := ⟨1, []⟩
  download := { events := [.error, .disconnected], espErr := .fail }

/-- The session of a failed download stays open. -/
theorem a_failed_download_keeps_its_session :
    ¬ PartialRun.Allowed (step fun seen ram _ _ => (seen, ram)) (AsPromised fun seen ram _ _ => (seen, ram)) (start ())
      [connectionRefused] := by
  intro h
  have hclosed := h.1.closed (by decide)
  revert hclosed
  decide

end HttpFetch

end Esp32Cam.Bft
