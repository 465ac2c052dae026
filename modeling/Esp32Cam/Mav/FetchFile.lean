/-
  Esp32Cam.Mav.FetchFile — what the HTTP client's calls make of the fetched file.

  Of the events the client has, three kinds reach the service (`Call`): a length is
  announced, data come, or it is over. `runCalls` runs the service over them
  (`handleEvents_eq`). Before the file is open any call but an announcement puts the
  service back into its initial stage, and there it stays (`runCalls_settled`); an open
  file is written until a call does not fit (`receiving_call`).

  The memory the stages share has a name in it until a length has been announced. What is
  closed there before is no file: `runCalls_eq_none_iff` says when that happens.
-/

import Esp32Cam.Mav.BufferedFileTransfer

namespace Esp32Cam.Mav.BufferedFileTransfer

open Esp32Cam.Bft

/-! ## Calls -/

inductive Call where
  | announce (size : Nat) (new : Allocation) (representation : List UInt8)
  | data (chunk : List UInt8)
  | finalize
  deriving DecidableEq, Repr

def HttpEvent.call : HttpEvent → Option Call
  | .onFinish => some .finalize
  | .onData data => some (.data data)
  | .onHeader key value new representation =>
    if key = kContentLength then
      if 0 < Lib.uint32 (atoi value) then some (.announce (Lib.uint32 (atoi value)) new representation)
      else some .finalize
    else none
  | _ => none

/-- A call that does not succeed puts the service back. -/
def backUnlessOk : Option (State × EspErr) → Option (State × EspErr)
  | none => none
  | some (s, espErr) =>
    if espErr ≠ .ok then s.transferIntoMavlinkInitial.map (·, espErr) else some (s, espErr)

def callStep (s : State) : Call → Option (State × EspErr)
  | .announce size new representation => backUnlessOk (some (s.transferIntoHttpReceiving size new representation))
  | .data chunk => backUnlessOk (s.onFileChunk chunk)
  | .finalize => s.transferIntoMavlinkInitial.map (·, .ok)

def runCalls (s : State) : List Call → Option State
  | [] => some s
  | c :: cs => (callStep s c).bind fun (s, _) => runCalls s cs

def Download.calls (d : Download) : List Call := d.events.filterMap HttpEvent.call

def Call.isAnnounce : Call → Bool
  | .announce _ _ _ => true
  | _ => false

section
variable {s s' : State}

theorem onData_eq (s : State) (chunk : List UInt8) (n : Nat) (new : Allocation) (representation : List UInt8) :
    onHttpFileDownloadChunk s (some chunk) n new representation = callStep s (.data chunk) := by
  unfold onHttpFileDownloadChunk callStep
  dsimp only
  cases s.onFileChunk chunk with
  | none => rfl
  | some r => rfl

theorem handler_of_call {e : HttpEvent} {c : Call} (h : e.call = some c) :
    httpDownloadFileOverHttpGetEventHandler s e = callStep s c := by
  cases e with
  | onFinish =>
    obtain rfl := Option.some_inj.mp h
    rfl
  | onData data =>
    obtain rfl := Option.some_inj.mp h
    exact onData_eq s data data.length ⟨0, []⟩ []
  | onHeader key value new representation =>
    simp only [HttpEvent.call] at h
    split at h
    · rename_i hkey
      simp only [httpDownloadFileOverHttpGetEventHandler, if_pos hkey, onHttpFileDownloadChunk]
      split at h
      · rename_i hsize
        obtain rfl := Option.some_inj.mp h
        rw [if_pos hsize]
        rfl
      · rename_i hsize
        obtain rfl := Option.some_inj.mp h
        rw [if_neg hsize]
        rfl
    · cases h
  | error => cases h
  | onConnected => cases h
  | disconnected => cases h
  | other => cases h

theorem handler_of_no_call {e : HttpEvent} (h : e.call = none) :
    ∃ espErr, httpDownloadFileOverHttpGetEventHandler s e = some (s, espErr) := by
  cases e with
  | onFinish => cases h
  | onData data => cases h
  | onHeader key value new representation =>
    simp only [HttpEvent.call] at h
    split at h
    · split at h <;> cases h
    · rename_i hkey
      exact ⟨.ok, by simp only [httpDownloadFileOverHttpGetEventHandler, if_neg hkey]⟩
  | error => exact ⟨.fail, rfl⟩
  | onConnected => exact ⟨.ok, rfl⟩
  | disconnected => exact ⟨.ok, rfl⟩
  | other => exact ⟨.fail, rfl⟩

theorem handleEvents_eq (s : State) (es : List HttpEvent) : handleEvents s es = runCalls s (es.filterMap HttpEvent.call) := by
  induction es generalizing s with
  | nil => rfl
  | cons e es ih =>
    rw [handleEvents, List.filterMap_cons]
    cases hcall : e.call with
    | none =>
      obtain ⟨espErr, hhandled⟩ := handler_of_no_call (s := s) hcall
      rw [hhandled]
      exact ih s
    | some c =>
      rw [handler_of_call hcall]
      dsimp only
      rw [runCalls]
      cases callStep s c with
      | none => rfl
      | some r => exact ih r.1

/-! ## In the initial stage -/

def StageState.isFile : StageState → Bool
  | .httpReceiving _ => true
  | _ => false

theorem isFile_iff {u : StageState} : u.isFile = true ↔ ∃ file, u = .httpReceiving file := by
  cases u <;> simp [StageState.isFile]

theorem closeFile_of_not_file (h : s.stageState.isFile = false) : s.closeFile = none := by
  unfold State.closeFile
  cases hu : s.stageState with
  | httpReceiving file => rw [hu] at h; cases h
  | _ => rfl

theorem closeFile_of_file {file : File} (h : s.stageState = .httpReceiving file) :
    s.closeFile = some { s with stageState := .httpReceiving (file.close s.fs).2, fs := (file.close s.fs).1 } := by
  unfold State.closeFile
  rw [h]

/-- Nothing but an announcement is noticed here, and one closes what is in the shared memory. -/
theorem callStep_settled (hs : s.stage = .mavlinkInitial) (c : Call) :
    (callStep s c).map Prod.fst = if c.isAnnounce then s.closeFile.map ({ · with stage := .mavlinkInitial }) else some s := by
  have hself : ({ s with stage := .mavlinkInitial } : State) = s := by rw [← hs]
  have hback : s.transferIntoMavlinkInitial = some s := by
    simp only [State.transferIntoMavlinkInitial, hs, Option.map_some, hself]
  cases c with
  | announce size new representation =>
    have hreceiving : s.transferIntoHttpReceiving size new representation =
        ({ s with stage := .httpReceiving }, .invalidState) := by
      simp only [State.transferIntoHttpReceiving, hs]
    simp only [callStep, hreceiving, backUnlessOk, State.transferIntoMavlinkInitial, Call.isAnnounce, if_true, ne_eq,
      reduceCtorEq, not_false_eq_true]
    unfold State.closeFile
    cases s.stageState <;> rfl
  | data chunk =>
    have hchunk : s.onFileChunk chunk = some (s, .invalidState) := by simp only [State.onFileChunk, hs]
    simp only [callStep, hchunk, backUnlessOk, hback, Call.isAnnounce, Bool.false_eq_true, if_false, ne_eq, reduceCtorEq,
      not_false_eq_true, if_true, Option.map_some]
  | finalize => simp only [callStep, hback, Call.isAnnounce, Bool.false_eq_true, if_false, Option.map_some]

theorem runCalls_cons (s : State) (c : Call) (cs : List Call) :
    runCalls s (c :: cs) = ((callStep s c).map Prod.fst).bind fun s => runCalls s cs := by
  rw [runCalls]
  cases callStep s c <;> rfl

/-- Where the shared memory has no file, an announcement ends the run. -/
theorem runCalls_settled (hs : s.stage = .mavlinkInitial) (hu : s.stageState.isFile = false) (cs : List Call) :
    runCalls s cs = if cs.any Call.isAnnounce then none else some s := by
  induction cs with
  | nil => rfl
  | cons c cs ih =>
    rw [runCalls_cons, callStep_settled hs, List.any_cons]
    cases c.isAnnounce with
    | true =>
      rw [closeFile_of_not_file hu]
      rfl
    | false =>
      rw [Bool.false_or]
      exact ih

/-- Where it has a closed one, nothing happens. -/
theorem runCalls_closed {file : File} (hs : s.stage = .mavlinkInitial) (hu : s.stageState = .httpReceiving file)
    (hclosed : file.isValid = false) (cs : List Call) : runCalls s cs = some s := by
  have hclose : s.closeFile.map ({ · with stage := .mavlinkInitial }) = some s := by
    obtain ⟨stage, stageState, fs⟩ := s
    obtain rfl : stage = .mavlinkInitial := hs
    obtain rfl : stageState = .httpReceiving file := hu
    simp only [State.closeFile, File.close, hclosed, Bool.false_eq_true, if_false, Option.map_some]
  induction cs with
  | nil => rfl
  | cons c cs ih =>
    rw [runCalls_cons, callStep_settled hs]
    cases c.isAnnounce with
    | true =>
      rw [if_pos rfl, hclose]
      exact ih
    | false => exact ih

/-! ## With a file in the shared memory -/

theorem transferIntoMavlinkInitial_of_file (hu : s.stageState.isFile = true) :
    ∃ s', s.transferIntoMavlinkInitial = some s' ∧ s'.stageState.isFile = true := by
  obtain ⟨file, hfile⟩ := isFile_iff.mp hu
  unfold State.transferIntoMavlinkInitial
  cases hstage : s.stage with
  | httpReceiving =>
    dsimp only
    rw [closeFile_of_file hfile]
    exact ⟨_, rfl, rfl⟩
  | _ => exact ⟨_, rfl, hu⟩

theorem backUnlessOk_of_file {espErr : EspErr} (hu : s.stageState.isFile = true) :
    ∃ r, backUnlessOk (some (s, espErr)) = some r ∧ r.1.stageState.isFile = true := by
  obtain ⟨s', hback, hu'⟩ := transferIntoMavlinkInitial_of_file hu
  unfold backUnlessOk
  dsimp only
  split
  · rw [hback]
    exact ⟨_, rfl, hu'⟩
  · exact ⟨_, rfl, hu⟩

theorem callStep_of_file (hu : s.stageState.isFile = true) (c : Call) :
    ∃ r, callStep s c = some r ∧ r.1.stageState.isFile = true := by
  obtain ⟨file, hfile⟩ := isFile_iff.mp hu
  cases c with
  | announce size new representation =>
    have hreceiving : (s.transferIntoHttpReceiving size new representation).1.stageState.isFile = true := by
      unfold State.transferIntoHttpReceiving
      cases s.stage with
      | httpInitial => rfl
      | _ => exact hu
    exact backUnlessOk_of_file hreceiving
  | data chunk =>
    show ∃ r, backUnlessOk (s.onFileChunk chunk) = some r ∧ _
    unfold State.onFileChunk
    cases s.stage with
    | httpReceiving =>
      dsimp only
      rw [hfile]
      dsimp only
      split
      · exact backUnlessOk_of_file rfl
      · exact backUnlessOk_of_file hu
    | _ => exact backUnlessOk_of_file hu
  | finalize =>
    obtain ⟨s', hback, hu'⟩ := transferIntoMavlinkInitial_of_file hu
    refine ⟨(s', .ok), ?_, hu'⟩
    simp only [callStep, hback, Option.map_some]

theorem runCalls_of_file (hu : s.stageState.isFile = true) (cs : List Call) :
    ∃ s', runCalls s cs = some s' ∧ s'.stageState.isFile = true := by
  induction cs generalizing s with
  | nil => exact ⟨s, rfl, hu⟩
  | cons c cs ih =>
    obtain ⟨r, hstep, hu'⟩ := callStep_of_file hu c
    obtain ⟨s', hrun, hu''⟩ := ih hu'
    refine ⟨s', ?_, hu''⟩
    rw [runCalls, hstep]
    exact hrun

/-! ## Before the file is open -/

/-- Data, or an end, before anything is announced: the service gives up. -/
theorem callStep_givesUp (hs : s.stage = .httpInitial) {c : Call} (hc : c.isAnnounce = false) :
    (callStep s c).map Prod.fst = some { s with stage := .mavlinkInitial } := by
  have hback : s.transferIntoMavlinkInitial = some { s with stage := .mavlinkInitial } := by
    simp only [State.transferIntoMavlinkInitial, hs, Option.map_some]
  cases c with
  | announce size new representation => cases hc
  | data chunk =>
    have hchunk : s.onFileChunk chunk = some (s, .invalidState) := by simp only [State.onFileChunk, hs]
    simp only [callStep, hchunk, backUnlessOk, hback, ne_eq, reduceCtorEq, not_false_eq_true, if_true, Option.map_some]
  | finalize => simp only [callStep, hback, Option.map_some]

/-- The name of the file the announcement is to open. -/
def openedFile (s : State) (new : Allocation) (representation : List UInt8) : File :=
  File.new ⟨new.pointer⟩ (s.fileName representation)

def refusedFile (s : State) (representation : List UInt8) : File := File.new ⟨0⟩ (s.fileName representation)

theorem callStep_opens {size : Nat} {new : Allocation} (hs : s.stage = .httpInitial) (hopen : CanOpen s.fs size new)
    (representation : List UInt8) : callStep s (.announce size new representation) =
      some ({ stage := .httpReceiving
              stageState := .httpReceiving (openedFile s new representation)
              fs := { s.fs with memoryPool := new.pointer, pool := new.block size } }, .ok) := by
  have hvalid : (openedFile s new representation).isValid = true := File.isValid_iff.mpr ⟨hopen.2.2, rfl⟩
  have hreceiving : s.transferIntoHttpReceiving size new representation =
      ({ stage := .httpReceiving
         stageState := .httpReceiving (openedFile s new representation)
         fs := { s.fs with memoryPool := new.pointer, pool := new.block size } }, .ok) := by
    unfold openedFile at hvalid ⊢
    simp only [State.transferIntoHttpReceiving, hs, tryOpenFileWriteBinary_opened hopen, hvalid, if_true]
  simp only [callStep, hreceiving, backUnlessOk, ne_eq, not_true_eq_false, if_false]

theorem callStep_refused {size : Nat} {new : Allocation} (hs : s.stage = .httpInitial) (hopen : ¬ CanOpen s.fs size new)
    (representation : List UInt8) : callStep s (.announce size new representation) =
      some ({ stage := .mavlinkInitial
              stageState := .httpReceiving (refusedFile s representation)
              fs := s.fs }, .fail) := by
  have hvalid : (refusedFile s representation).isValid = false := rfl
  have hreceiving : s.transferIntoHttpReceiving size new representation =
      ({ stage := .httpReceiving
         stageState := .httpReceiving (refusedFile s representation)
         fs := s.fs }, .fail) := by
    unfold refusedFile at hvalid ⊢
    simp only [State.transferIntoHttpReceiving, hs, tryOpenFileWriteBinary_refused hopen, hvalid, Bool.false_eq_true,
      if_false]
  simp only [callStep, hreceiving, backUnlessOk, ne_eq, reduceCtorEq, not_false_eq_true, if_true,
    State.transferIntoMavlinkInitial, State.closeFile, File.close, hvalid, Bool.false_eq_true, if_false, Option.map_some]

/-- A length is announced behind data, or an end, that came without one. -/
def Misordered : List Call → Prop
  | [] => False
  | c :: cs => c.isAnnounce = false ∧ cs.any Call.isAnnounce = true

/-- When the shared memory is taken for a file, and is none. -/
theorem runCalls_eq_none_iff (hs : s.stage = .httpInitial) (cs : List Call) :
    runCalls s cs = none ↔ s.stageState.isFile = false ∧ Misordered cs := by
  cases hu : s.stageState.isFile with
  | true =>
    obtain ⟨s', hrun, -⟩ := runCalls_of_file hu cs
    rw [hrun]
    simp
  | false =>
    cases cs with
    | nil => exact iff_of_false (by intro h; cases h) (by rintro ⟨-, h⟩; exact h)
    | cons c cs =>
      cases hc : c.isAnnounce with
      | true =>
        have hu' : ∃ r, callStep s c = some r ∧ r.1.stageState.isFile = true := by
          cases c with
          | announce size new representation =>
            by_cases hopen : CanOpen s.fs size new
            · exact ⟨_, callStep_opens hs hopen representation, rfl⟩
            · exact ⟨_, callStep_refused hs hopen representation, rfl⟩
          | data chunk => cases hc
          | finalize => cases hc
        obtain ⟨r, hstep, hfile⟩ := hu'
        obtain ⟨s', hrun, -⟩ := runCalls_of_file hfile cs
        rw [runCalls, hstep]
        refine iff_of_false ?_ ?_
        · intro hnone
          have hrun' : runCalls r.1 cs = none := hnone
          rw [hrun] at hrun'
          cases hrun'
        · intro h
          rcases h with ⟨-, hc', -⟩
          rw [hc] at hc'
          cases hc'
      | false =>
        rw [runCalls_cons, callStep_givesUp hs hc, Option.bind_some,
          runCalls_settled (s := { s with stage := .mavlinkInitial }) rfl hu]
        cases hany : cs.any Call.isAnnounce with
        | true => exact iff_of_true rfl ⟨rfl, hc, hany⟩
        | false =>
          refine iff_of_false (by intro h; cases h) ?_
          intro h
          rcases h with ⟨-, -, hany'⟩
          rw [hany] at hany'
          cases hany'

end

end Esp32Cam.Mav.BufferedFileTransfer
