/-
  Esp32Cam.Mav.FetchResidue — what a fetch leaves behind for the next one.

  `Clean` asks three things of a command: the service is back in its initial stage, the
  file it has opened is closed unless somebody keeps it, and if its download has failed,
  whatever could be fetched before can be fetched still.

  The service tidies up in its callback, on what the client reports there; an error the
  client returns is not reported there. And the RAM file system opens one file in its
  life, since closing leaves `memoryPool` at its address. `no_residue_iff`: a sequence of
  commands is clean exactly when every one of them is `Sound`: it opens a file only to
  fetch it whole, and the client does not fail before the service has given up.
  `a_lost_connection_leaves_its_file_open`.
-/

import Esp32Cam.Lib.PartialRun
import Esp32Cam.Mav.FetchOutcome

namespace Esp32Cam.Mav.BufferedFileTransfer

open Esp32Cam.Bft Esp32Cam.Lib.PartialRun

variable {F : Type} [SinglePrecision F]

/-! ## What a download has to be like -/

def AllTaken : State → List Call → Prop
  | _, [] => True
  | s, c :: cs => ∃ s', callStep s c = some (s', .ok) ∧ AllTaken s' cs

def Call.isFinal : Call → Bool
  | .finalize => true
  | _ => false

/-- The calls behind the announcement bring no more than there is room for, and then the end. -/
def Fits : Nat → List Call → Prop
  | _, [] => True
  | room, .data chunk :: cs => chunk.length ≤ room ∧ Fits (room - chunk.length) cs
  | _, .finalize :: cs => cs.all Call.isFinal = true
  | _, .announce _ _ _ :: _ => False

structure Command (F : Type) where
  env : Env
  message : Message F
  long : CommandLong F

def Command.run (s : State) (e : Command F) : Option (Fetched F) := onCommandLongFetchFile s e.env e.message e.long

/-- The file is fetched: its length is announced, everything is taken, and the client reports no error. -/
def Succeeds (s : State) (e : Command F) : Prop :=
  e.env.bufferedFileTransferInstance = true ∧ e.env.download.initialized = true ∧ e.env.download.espErr = .ok ∧
    e.env.download.calls.any Call.isAnnounce = true ∧
    ∃ fileName, tryEncodeAutopilotFileName e.long = some fileName ∧ AllTaken (started s fileName) e.env.download.calls

/-- What a command is to leave behind. -/
structure Clean (s : State) (e : Command F) (f : Fetched F) : Prop where
  stage : f.state.stage = .mavlinkInitial
  closed : f.notified ≠ [] ∧ e.env.kept = true ∨ f.state.fs.pool = []
  later : ¬ Succeeds s e → ∀ e' : Command F, Succeeds s e' → Succeeds f.state e'

/-- A download that opens a file fetches it; without one, nothing is announced behind the
    first call, and either the client fails once the service has given up, or somebody
    keeps the pointer to what is no file. -/
def Sound (s : State) (e : Command F) : Prop :=
  Starts e.env e.long →
    e.env.download.initialized = true ∧
      match e.env.download.calls with
      | [] => e.env.download.espErr = .ok ∧ e.env.kept = true
      | .announce size new _ :: cs => CanOpen s.fs size new → e.env.download.espErr = .ok ∧ Fits size cs
      | _ :: cs => cs.any Call.isAnnounce = false ∧ (e.env.download.espErr ≠ .ok ∨ e.env.kept = true)

/-- Between commands: the initial stage, and a file system that is as new, or has had its file. -/
structure Idle (s : State) : Prop where
  stage : s.stage = .mavlinkInitial
  fs : s.fs = .init ∨ s.fs.memoryPool ≠ 0 ∧ s.fs.pool = []

/-! ## While the file is written -/

/-- The file at `pool` is open and has this much room behind the cursor. -/
def Receiving (s : State) (pool room : Nat) : Prop :=
  s.stage = .httpReceiving ∧ s.fs.memoryPool = pool ∧ s.fs.pool.length - s.fs.memoryPoolCurrentPosition = room ∧
    ∃ file, s.stageState = .httpReceiving file ∧ file.isValid = true ∧ file.fileDescriptor.raw = s.fs.memoryPool

/-- The file that was at `pool` has been closed. -/
def Closed (s : State) (pool : Nat) : Prop :=
  s.stage = .mavlinkInitial ∧ s.fs.memoryPool = pool ∧ s.fs.pool = [] ∧
    ∃ file, s.stageState = .httpReceiving file ∧ file.isValid = false

section
variable {s s' : State} {pool room : Nat}

theorem close_open {fs : SingleBufferRamFileSystem} {file : File} (hvalid : file.isValid = true)
    (hraw : file.fileDescriptor.raw = fs.memoryPool) : file.close fs =
      ({ fs with pool := [], memoryPoolNextWritePosition := 0, memoryPoolCurrentPosition := 0 },
        { file with fileSystem := false, fileDescriptor := ⟨0⟩ }) := by
  have hfd : file.fileDescriptor.isValid = true := (Bool.and_eq_true_iff.mp hvalid).1
  simp only [File.close, hvalid, if_true, SingleBufferRamFileSystem.closeFile, hraw, hfd, and_self]

theorem receiving_back (h : Receiving s pool room) : ∃ s', s.transferIntoMavlinkInitial = some s' ∧ Closed s' pool := by
  obtain ⟨hstage, hpool, -, file, hfile, hvalid, hraw⟩ := h
  have hback : s.transferIntoMavlinkInitial = some
      { stage := .mavlinkInitial
        stageState := .httpReceiving { file with fileSystem := false, fileDescriptor := ⟨0⟩ }
        fs := { s.fs with pool := [], memoryPoolNextWritePosition := 0, memoryPoolCurrentPosition := 0 } } := by
    simp only [State.transferIntoMavlinkInitial, hstage, closeFile_of_file hfile, close_open hvalid hraw, Option.map_some]
  exact ⟨_, hback, rfl, hpool, rfl, _, rfl, rfl⟩

/-- Data that fit are stored; data that do not end the download. -/
theorem receiving_data (h : Receiving s pool room) (chunk : List UInt8) :
    (chunk.length ≤ room → ∃ s', callStep s (.data chunk) = some (s', .ok) ∧ Receiving s' pool (room - chunk.length)) ∧
    (room < chunk.length → ∃ s', callStep s (.data chunk) = some (s', .fail) ∧ Closed s' pool) := by
  have hreceiving := h
  obtain ⟨hstage, hpool, hroom, file, hfile, hvalid, hraw⟩ := h
  have hfs : file.fileSystem = true := (File.isValid_iff.mp hvalid).2
  have happend : file.append s.fs chunk = s.fs.append file.fileDescriptor chunk := by
    unfold File.append
    rw [if_pos hfs]
    rfl
  have hwritten : (s.fs.append file.fileDescriptor chunk).2 = min chunk.length room := by
    simp only [SingleBufferRamFileSystem.append, SingleBufferRamFileSystem.memoryPoolSize, hroom]
  have hchunk : s.onFileChunk chunk = some ({ s with fs := (s.fs.append file.fileDescriptor chunk).1 },
      if min chunk.length room ≠ chunk.length then .fail else .ok) := by
    simp only [State.onFileChunk, hstage, hfile, hvalid, if_true, happend, hwritten]
  have hafter : Receiving { s with fs := (s.fs.append file.fileDescriptor chunk).1 } pool (room - chunk.length) := by
    refine ⟨hstage, hpool, ?_, file, hfile, hvalid, hraw⟩
    show (s.fs.append file.fileDescriptor chunk).1.pool.length -
      (s.fs.append file.fileDescriptor chunk).1.memoryPoolCurrentPosition = _
    rw [length_append]
    simp only [SingleBufferRamFileSystem.append, SingleBufferRamFileSystem.memoryPoolSize]
    omega
  constructor
  · intro hle
    have hmin : ¬ min chunk.length room ≠ chunk.length := by omega
    refine ⟨_, ?_, hafter⟩
    simp only [callStep, hchunk, if_neg hmin, backUnlessOk, ne_eq, not_true_eq_false, if_false]
  · intro hlt
    have hmin : min chunk.length room ≠ chunk.length := by omega
    obtain ⟨s', hback, hclosed⟩ := receiving_back hafter
    refine ⟨s', ?_, hclosed⟩
    simp only [callStep, hchunk, if_pos hmin, backUnlessOk, ne_eq, reduceCtorEq, not_false_eq_true, if_true, hback,
      Option.map_some]

/-- A second announcement ends the download. -/
theorem receiving_announce (h : Receiving s pool room) (size : Nat) (new : Allocation) (representation : List UInt8) :
    ∃ s', callStep s (.announce size new representation) = some (s', .invalidState) ∧ Closed s' pool := by
  obtain ⟨s', hback, hclosed⟩ := receiving_back h
  have hself : ({ s with stage := .httpReceiving } : State) = s := by rw [← h.1]
  have hreceiving : s.transferIntoHttpReceiving size new representation = (s, .invalidState) := by
    simp only [State.transferIntoHttpReceiving, h.1]
    exact congrArg (·, EspErr.invalidState) hself
  refine ⟨s', ?_, hclosed⟩
  simp only [callStep, hreceiving, backUnlessOk, ne_eq, reduceCtorEq, not_false_eq_true, if_true, hback, Option.map_some]

theorem receiving_finalize (h : Receiving s pool room) : ∃ s', callStep s .finalize = some (s', .ok) ∧ Closed s' pool := by
  obtain ⟨s', hback, hclosed⟩ := receiving_back h
  exact ⟨s', by simp only [callStep, hback, Option.map_some], hclosed⟩

theorem runCalls_of_closed (h : Closed s pool) (cs : List Call) : runCalls s cs = some s := by
  obtain ⟨hstage, -, -, file, hfile, hinvalid⟩ := h
  exact runCalls_closed hstage hfile hinvalid cs

/-- Whatever comes, the file is written further or closed. -/
theorem runCalls_receiving (h : Receiving s pool room) (cs : List Call) :
    ∃ s', runCalls s cs = some s' ∧ ((∃ room, Receiving s' pool room) ∨ Closed s' pool) := by
  induction cs generalizing s room with
  | nil => exact ⟨s, rfl, Or.inl ⟨room, h⟩⟩
  | cons c cs ih =>
    have hclosed : ∀ {s' espErr}, callStep s c = some (s', espErr) → Closed s' pool →
        ∃ s', runCalls s (c :: cs) = some s' ∧ ((∃ room, Receiving s' pool room) ∨ Closed s' pool) := by
      intro s' espErr hstep hclosed
      refine ⟨s', ?_, Or.inr hclosed⟩
      rw [runCalls, hstep]
      exact runCalls_of_closed hclosed cs
    cases c with
    | announce size new representation =>
      obtain ⟨s', hstep, hs'⟩ := receiving_announce h size new representation
      exact hclosed hstep hs'
    | data chunk =>
      by_cases hle : chunk.length ≤ room
      · obtain ⟨s', hstep, hs'⟩ := (receiving_data h chunk).1 hle
        obtain ⟨s'', hrun, hs''⟩ := ih hs'
        refine ⟨s'', ?_, hs''⟩
        rw [runCalls, hstep]
        exact hrun
      · obtain ⟨s', hstep, hs'⟩ := (receiving_data h chunk).2 (Nat.lt_of_not_le hle)
        exact hclosed hstep hs'
    | finalize =>
      obtain ⟨s', hstep, hs'⟩ := receiving_finalize h
      exact hclosed hstep hs'

/-! ## Which downloads succeed -/

/-- Out of the initial stage and back again nothing is taken but the end. -/
theorem allTaken_settled (hs : s.stage = .mavlinkInitial) (cs : List Call) :
    AllTaken s cs ↔ cs.all Call.isFinal = true := by
  induction cs with
  | nil => exact iff_of_true trivial rfl
  | cons c cs ih =>
    have hself : ({ s with stage := .mavlinkInitial } : State) = s := by rw [← hs]
    have hback : s.transferIntoMavlinkInitial = some s := by
      simp only [State.transferIntoMavlinkInitial, hs, Option.map_some, hself]
    cases c with
    | announce size new representation =>
      refine iff_of_false ?_ (by simp [Call.isFinal])
      intro h
      rcases h with ⟨s', hstep, -⟩
      simp only [callStep, State.transferIntoHttpReceiving, hs, backUnlessOk, ne_eq, reduceCtorEq, not_false_eq_true,
        if_true] at hstep
      obtain ⟨s₁, -, heq⟩ := Option.map_eq_some_iff.mp hstep
      cases (Prod.mk.inj heq).2
    | data chunk =>
      refine iff_of_false ?_ (by simp [Call.isFinal])
      intro h
      rcases h with ⟨s', hstep, -⟩
      simp only [callStep, State.onFileChunk, hs, backUnlessOk, ne_eq, reduceCtorEq, not_false_eq_true, if_true, hback,
        Option.map_some, Option.some_inj, Prod.mk.injEq, and_false] at hstep
    | finalize =>
      have hstep : callStep s .finalize = some (s, .ok) := by simp only [callStep, hback, Option.map_some]
      rw [List.all_cons, Bool.and_eq_true_iff]
      constructor
      · intro h
        rcases h with ⟨s', hstep', hrest⟩
        obtain ⟨rfl, -⟩ := Prod.mk.inj (Option.some_inj.mp (hstep.symm.trans hstep'))
        exact ⟨rfl, ih.mp hrest⟩
      · intro h
        rcases h with ⟨-, hrest⟩
        exact ⟨s, hstep, ih.mpr hrest⟩

theorem allTaken_receiving (h : Receiving s pool room) (cs : List Call) : AllTaken s cs ↔ Fits room cs := by
  induction cs generalizing s room with
  | nil => exact Iff.rfl
  | cons c cs ih =>
    cases c with
    | announce size new representation =>
      obtain ⟨s', hstep, -⟩ := receiving_announce h size new representation
      refine iff_of_false ?_ (fun h => h)
      intro h
      rcases h with ⟨s'', hstep', -⟩
      cases (Prod.mk.inj (Option.some_inj.mp (hstep.symm.trans hstep'))).2
    | data chunk =>
      by_cases hle : chunk.length ≤ room
      · obtain ⟨s', hstep, hs'⟩ := (receiving_data h chunk).1 hle
        constructor
        · intro h
          rcases h with ⟨s'', hstep', hrest⟩
          obtain ⟨rfl, -⟩ := Prod.mk.inj (Option.some_inj.mp (hstep.symm.trans hstep'))
          exact ⟨hle, (ih hs').mp hrest⟩
        · intro h
          rcases h with ⟨-, hrest⟩
          exact ⟨s', hstep, (ih hs').mpr hrest⟩
      · obtain ⟨s', hstep, -⟩ := (receiving_data h chunk).2 (Nat.lt_of_not_le hle)
        refine iff_of_false ?_ (fun h => hle h.1)
        intro h
        rcases h with ⟨s'', hstep', -⟩
        cases (Prod.mk.inj (Option.some_inj.mp (hstep.symm.trans hstep'))).2
    | finalize =>
      obtain ⟨s', hstep, hclosed⟩ := receiving_finalize h
      constructor
      · intro h
        rcases h with ⟨s'', hstep', hrest⟩
        obtain ⟨rfl, -⟩ := Prod.mk.inj (Option.some_inj.mp (hstep.symm.trans hstep'))
        exact (allTaken_settled hclosed.1 cs).mp hrest
      · intro hrest
        exact ⟨s', hstep, (allTaken_settled hclosed.1 cs).mpr hrest⟩

/-- A download that starts with a length, for a file that can be opened, and fits. -/
def Opens (s : State) (cs : List Call) (size : Nat) (new : Allocation) (rest : List Call) : Prop :=
  (∃ representation, cs = .announce size new representation :: rest) ∧ CanOpen s.fs size new

/-- What the first announcement leaves when it opens the file. -/
theorem receiving_of_opens {cs rest : List Call} {size : Nat} {new : Allocation} (hs : s.stage = .httpInitial)
    (hfs : s.fs.memoryPool = 0 → s.fs = .init) (h : Opens s cs size new rest) :
    ∃ s' representation, cs = .announce size new representation :: rest ∧
      callStep s (.announce size new representation) = some (s', .ok) ∧ Receiving s' new.pointer size := by
  obtain ⟨⟨representation, hcs⟩, hopen⟩ := h
  refine ⟨_, representation, hcs, callStep_opens hs hopen representation, rfl, rfl, ?_, _, rfl, ?_, rfl⟩
  · show (new.block size).length - s.fs.memoryPoolCurrentPosition = size
    rw [Allocation.length_block, hfs hopen.1]
    rfl
  · exact File.isValid_iff.mpr ⟨hopen.2.2, rfl⟩

theorem allTaken_iff (hs : s.stage = .httpInitial) (hfs : s.fs.memoryPool = 0 → s.fs = .init) (cs : List Call) :
    cs.any Call.isAnnounce = true ∧ AllTaken s cs ↔ ∃ size new rest, Opens s cs size new rest ∧ Fits size rest := by
  constructor
  · intro h
    rcases h with ⟨hany, htaken⟩
    cases cs with
    | nil => cases hany
    | cons c cs =>
      obtain ⟨s', hstep, hrest⟩ := htaken
      cases c with
      | announce size new representation =>
        by_cases hopen : CanOpen s.fs size new
        · have hopens : Opens s (.announce size new representation :: cs) size new cs := ⟨⟨representation, rfl⟩, hopen⟩
          obtain ⟨s'', representation', heq, hstep', hreceiving⟩ := receiving_of_opens hs hfs hopens
          obtain ⟨⟨-, -, rfl⟩, -⟩ := List.cons.inj heq |>.imp_left Call.announce.inj
          obtain ⟨rfl, -⟩ := Prod.mk.inj (Option.some_inj.mp (hstep'.symm.trans hstep))
          exact ⟨size, new, cs, hopens, (allTaken_receiving hreceiving cs).mp hrest⟩
        · rw [callStep_refused hs hopen] at hstep
          cases (Prod.mk.inj (Option.some_inj.mp hstep)).2
      | data chunk =>
        simp only [callStep, State.onFileChunk, hs, backUnlessOk, State.transferIntoMavlinkInitial, ne_eq, reduceCtorEq,
          not_false_eq_true, if_true, Option.map_some, Option.some_inj, Prod.mk.injEq, and_false] at hstep
      | finalize =>
        simp only [callStep, State.transferIntoMavlinkInitial, hs, Option.map_some, Option.some_inj, Prod.mk.injEq,
          and_true] at hstep
        subst hstep
        have hfinal := (allTaken_settled rfl cs).mp hrest
        obtain ⟨c, hc, hannounce⟩ := List.any_eq_true.mp hany
        rcases List.mem_cons.mp hc with rfl | hc
        · cases hannounce
        · have hcfinal := List.all_eq_true.mp hfinal c hc
          cases c with
          | finalize => cases hannounce
          | announce _ _ _ => cases hcfinal
          | data _ => cases hcfinal
  · intro h
    rcases h with ⟨size, new, rest, hopens, hfits⟩
    obtain ⟨s', representation, rfl, hstep, hreceiving⟩ := receiving_of_opens hs hfs hopens
    exact ⟨rfl, s', hstep, (allTaken_receiving hreceiving rest).mpr hfits⟩

end

section
variable {s : State} {e e' : Command F}

theorem Idle.fresh (h : Idle s) : s.fs.memoryPool = 0 → s.fs = .init := by
  intro hzero
  rcases h.fs with hinit | ⟨hused, -⟩
  · exact hinit
  · exact absurd hzero hused

theorem Idle.pool (h : Idle s) : s.fs.pool = [] := by
  rcases h.fs with hinit | ⟨-, hpool⟩
  · rw [hinit]
    rfl
  · exact hpool

theorem succeeds_iff (hfs : s.fs.memoryPool = 0 → s.fs = .init) : Succeeds s e ↔
    Starts e.env e.long ∧ e.env.download.initialized = true ∧ e.env.download.espErr = .ok ∧
      ∃ size new rest, Opens s e.env.download.calls size new rest ∧ Fits size rest := by
  have htaken : ∀ fileName, e.env.download.calls.any Call.isAnnounce = true ∧
      AllTaken (started s fileName) e.env.download.calls ↔
        ∃ size new rest, Opens s e.env.download.calls size new rest ∧ Fits size rest := by
    intro fileName
    have hstarted := allTaken_iff (started_stage s fileName) (by rw [started_fs]; exact hfs) e.env.download.calls
    unfold Opens at hstarted ⊢
    rw [started_fs] at hstarted
    exact hstarted
  constructor
  · intro h
    rcases h with ⟨hinst, hinit, hok, hany, fileName, hname, hall⟩
    exact ⟨⟨hinst, by rw [hname]; rfl⟩, hinit, hok, (htaken fileName).mp ⟨hany, hall⟩⟩
  · intro h
    rcases h with ⟨⟨hinst, hsome⟩, hinit, hok, hopens⟩
    obtain ⟨fileName, hname⟩ := Option.isSome_iff_exists.mp hsome
    obtain ⟨hany, hall⟩ := (htaken fileName).mpr hopens
    exact ⟨hinst, hinit, hok, hany, fileName, hname, hall⟩

/-- What can be fetched depends on the file system alone. -/
theorem succeeds_congr {s' : State} (hfs : s.fs.memoryPool = 0 → s.fs = .init) (heq : s'.fs = s.fs) :
    Succeeds s e ↔ Succeeds s' e := by
  rw [succeeds_iff hfs, succeeds_iff (by rw [heq]; exact hfs)]
  unfold Opens
  rw [heq]

end

/-! ## The end of a command -/

section
variable {s : State} {pool : Nat}

theorem closeFile_of_invalid {file : File} (hu : s.stageState = .httpReceiving file) (hinvalid : file.isValid = false) :
    s.closeFile = some s := by
  obtain ⟨stage, stageState, fs⟩ := s
  obtain rfl : stageState = .httpReceiving file := hu
  simp only [State.closeFile, File.close, hinvalid, Bool.false_eq_true, if_false]

theorem back_of_invalid {file : File} (hu : s.stageState = .httpReceiving file) (hinvalid : file.isValid = false) :
    s.transferIntoMavlinkInitial = some { s with stage := .mavlinkInitial } := by
  unfold State.transferIntoMavlinkInitial
  cases s.stage with
  | httpReceiving =>
    dsimp only
    rw [closeFile_of_invalid hu hinvalid]
    rfl
  | _ => rfl

theorem back_of_not_receiving (hs : s.stage ≠ .httpReceiving) :
    s.transferIntoMavlinkInitial = some { s with stage := .mavlinkInitial } := by
  unfold State.transferIntoMavlinkInitial
  cases hstage : s.stage with
  | httpReceiving => exact absurd hstage hs
  | _ => rfl

def handedOver (s s' : State) (m : Message F) (url : List UInt8) : Fetched F :=
  { answered s' m .accepted with notified := [⟨s.stageState, s.fs⟩], requested := [url] }

variable {env : Env} {m : Message F} {url : List UInt8}

omit [SinglePrecision F] in
theorem finished_ok {s₁ s₂ : State} (hnotify : notify s env.kept = some s₁)
    (hback : s₁.transferIntoMavlinkInitial = some s₂) :
    finished s env m url .ok = some (handedOver s s₂ m url) := by
  simp only [finished, ne_eq, not_true_eq_false, if_false, hnotify, Option.bind_some, hback, Option.map_some, handedOver]

omit [SinglePrecision F] in
/-- A client without an error leaves the file closed, whoever keeps it. -/
theorem finished_of_file (env : Env) (m : Message F) (url : List UInt8)
    (h : (∃ room, Receiving s pool room) ∨ Closed s pool) :
    ∃ f : Fetched F, finished s env m url .ok = some f ∧ Closed f.state pool := by
  have hnotify : ∃ s', notify s env.kept = some s' ∧
      ∃ s'', s'.transferIntoMavlinkInitial = some s'' ∧ Closed s'' pool := by
    cases hkept : env.kept with
    | true =>
      refine ⟨s, rfl, ?_⟩
      rcases h with ⟨room, hreceiving⟩ | hclosed
      · exact receiving_back hreceiving
      · obtain ⟨hstage, hpool, hnil, file, hfile, hinvalid⟩ := hclosed
        exact ⟨_, back_of_invalid hfile hinvalid, rfl, hpool, hnil, file, hfile, hinvalid⟩
    | false =>
      rcases h with ⟨room, -, hpool, -, file, hfile, hvalid, hraw⟩ | ⟨hstage, hpool, hnil, file, hfile, hinvalid⟩
      · refine ⟨_, (closeFile_of_file hfile).trans (by rw [close_open hvalid hraw]), ?_⟩
        exact ⟨_, back_of_invalid rfl rfl, rfl, hpool, rfl, _, rfl, rfl⟩
      · exact ⟨s, closeFile_of_invalid hfile hinvalid, _, back_of_invalid hfile hinvalid, rfl, hpool, hnil, file, hfile,
          hinvalid⟩
  obtain ⟨s', hs', s'', hs'', hclosed⟩ := hnotify
  exact ⟨_, finished_ok hs' hs'', hclosed⟩

omit [SinglePrecision F] in
theorem finished_of_error {espErr : EspErr} (h : espErr ≠ .ok) :
    finished s env m url espErr = some { answered s m .failed with requested := [url] } := if_pos h

omit [SinglePrecision F] in
/-- Without a file the pointer must not be released. -/
theorem finished_of_not_file (env : Env) (m : Message F) (url : List UInt8) (hs : s.stage ≠ .httpReceiving)
    (hu : s.stageState.isFile = false) :
    (env.kept = true → ∃ f : Fetched F, finished s env m url .ok = some f ∧ f.state = { s with stage := .mavlinkInitial }) ∧
    (env.kept = false → finished s env m url .ok = none) := by
  constructor
  · intro hkept
    have hnotify : notify s env.kept = some s := by rw [hkept]; rfl
    exact ⟨_, finished_ok hnotify (back_of_not_receiving hs), rfl⟩
  · intro hkept
    simp only [finished, ne_eq, not_true_eq_false, if_false, notify, hkept, Bool.false_eq_true, closeFile_of_not_file hu,
      Option.bind_none]

omit [SinglePrecision F] in
theorem finished_of_invalid (env : Env) (m : Message F) (url : List UInt8) {file : File}
    (hs : s.stage = .mavlinkInitial) (hu : s.stageState = .httpReceiving file) (hinvalid : file.isValid = false) (espErr : EspErr) :
    ∃ f : Fetched F, finished s env m url espErr = some f ∧ f.state = s := by
  by_cases hok : espErr = .ok
  · have hnotify : notify s env.kept = some s := by
      unfold notify
      split
      · rfl
      · exact closeFile_of_invalid hu hinvalid
    have hback : s.transferIntoMavlinkInitial = some s := by
      rw [back_of_invalid hu hinvalid, ← hs]
    rw [hok]
    exact ⟨_, finished_ok hnotify hback, rfl⟩
  · exact ⟨_, finished_of_error hok, rfl⟩

end

/-! ## One command -/

section
variable {s : State} {e : Command F} {f : Fetched F}

theorem run_of_not_starts (h : ¬ Starts e.env e.long) : e.run s = some (answered s e.message .failed) :=
  onCommand_of_not_starts h

theorem run_of_download {fileName : List UInt8} (hinst : e.env.bufferedFileTransferInstance = true)
    (hname : tryEncodeAutopilotFileName e.long = some fileName) (hinit : e.env.download.initialized = true) :
    ∃ url, e.run s = (runCalls (started s fileName) e.env.download.calls).bind fun s' =>
      finished s' e.env e.message url e.env.download.espErr := by
  obtain ⟨url, hrun⟩ := onCommand_of_starts (s := s) (m := e.message) hinst hname
  refine ⟨url, hrun.trans ?_⟩
  rw [download_eq _ hinit]
  cases runCalls (started s fileName) e.env.download.calls <;> rfl

/-- Without an announcement first: what the client is left with. -/
theorem runCalls_unannounced {fileName : List UInt8} (hu : (started s fileName).stageState.isFile = false) {c : Call}
    {cs : List Call} (hc : c.isAnnounce = false) : runCalls (started s fileName) (c :: cs) =
      if cs.any Call.isAnnounce then none else some { started s fileName with stage := .mavlinkInitial } := by
  rw [runCalls_cons, callStep_givesUp (started_stage s fileName) hc, Option.bind_some]
  exact runCalls_settled (s := { started s fileName with stage := .mavlinkInitial }) rfl hu cs

theorem runCalls_refused (fileName representation : List UInt8) (cs : List Call) {size : Nat} {new : Allocation}
    (hopen : ¬ CanOpen s.fs size new) :
    ∃ s' file, runCalls (started s fileName) (.announce size new representation :: cs) = some s' ∧
      s'.stage = .mavlinkInitial ∧ s'.stageState = .httpReceiving file ∧ file.isValid = false ∧ s'.fs = s.fs := by
  have hopen' : ¬ CanOpen (started s fileName).fs size new := by
    rw [started_fs]
    exact hopen
  have hrun : runCalls (started s fileName) (.announce size new representation :: cs) = some
      ⟨.mavlinkInitial, .httpReceiving (refusedFile (started s fileName) representation), (started s fileName).fs⟩ := by
    rw [runCalls, callStep_refused (started_stage s fileName) hopen']
    exact runCalls_closed rfl rfl rfl cs
  exact ⟨_, refusedFile (started s fileName) representation, hrun, rfl, rfl, rfl, started_fs s fileName⟩

theorem runCalls_opened (fileName representation : List UInt8) (cs : List Call) {size : Nat} {new : Allocation}
    (hi : Idle s) (hopen : CanOpen s.fs size new) :
    ∃ s', runCalls (started s fileName) (.announce size new representation :: cs) = some s' ∧
      ((∃ room, Receiving s' new.pointer room) ∨ Closed s' new.pointer) := by
  have hopens : Opens (started s fileName) (.announce size new representation :: cs) size new cs :=
    ⟨⟨representation, rfl⟩, by rw [started_fs]; exact hopen⟩
  obtain ⟨s', representation', heq, hstep, hreceiving⟩ :=
    receiving_of_opens (started_stage s fileName) (by rw [started_fs]; exact hi.fresh) hopens
  obtain ⟨⟨-, -, rfl⟩, -⟩ := List.cons.inj heq |>.imp_left Call.announce.inj
  obtain ⟨s'', hrun, hs''⟩ := runCalls_receiving hreceiving cs
  refine ⟨s'', ?_, hs''⟩
  rw [runCalls, hstep]
  exact hrun

theorem sound_step (hi : Idle s) (h : Sound s e) :
    ∃ f, e.run s = some f ∧ Idle f.state ∧ (f.state.fs = s.fs ∨ Succeeds s e) := by
  by_cases hstarts : Starts e.env e.long
  · obtain ⟨hinit, hcalls⟩ := h hstarts
    obtain ⟨hinst, hsome⟩ := hstarts
    obtain ⟨fileName, hname⟩ := Option.isSome_iff_exists.mp hsome
    have hu : (started s fileName).stageState.isFile = false :=
      (started_isFile s (length_autopilotFileName hname)).mpr (Or.inl hi.stage)
    obtain ⟨url, hrun⟩ := run_of_download (s := s) hinst hname hinit
    rw [hrun]
    -- a state without a file, and what may be done with it
    have hunopened : ∀ s₁ : State, s₁.stage ≠ .httpReceiving → s₁.stageState.isFile = false → s₁.fs = s.fs →
        (e.env.download.espErr ≠ .ok → s₁.stage = .mavlinkInitial) →
        e.env.download.espErr ≠ .ok ∨ e.env.kept = true →
        ∃ f : Fetched F, finished s₁ e.env e.message url e.env.download.espErr = some f ∧ Idle f.state ∧
          (f.state.fs = s.fs ∨ Succeeds s e) := by
      intro s₁ hstage hfile hfs hfail hor
      by_cases hok : e.env.download.espErr = .ok
      · have hkept := hor.resolve_left (fun h => h hok)
        obtain ⟨f, hf, hstate⟩ := (finished_of_not_file e.env e.message url hstage hfile).1 hkept
        rw [hok]
        refine ⟨f, hf, ?_, Or.inl ?_⟩
        · rw [hstate]
          exact ⟨rfl, by rw [hfs]; exact hi.fs⟩
        · rw [hstate]
          exact hfs
      · have hfs' : s₁.fs = .init ∨ s₁.fs.memoryPool ≠ 0 ∧ s₁.fs.pool = [] := by
          rw [hfs]
          exact hi.fs
        exact ⟨_, finished_of_error hok, ⟨hfail hok, hfs'⟩, Or.inl hfs⟩
    cases hcs : e.env.download.calls with
    | nil =>
      rw [hcs] at hcalls
      exact hunopened _ (by rw [started_stage]; decide) hu (started_fs s fileName) (fun hne => absurd hcalls.1 hne)
        (Or.inr hcalls.2)
    | cons c cs =>
      rw [hcs] at hcalls
      cases hc : c.isAnnounce with
      | false =>
        have hcalls' : cs.any Call.isAnnounce = false ∧ (e.env.download.espErr ≠ .ok ∨ e.env.kept = true) := by
          cases c with
          | announce _ _ _ => cases hc
          | data _ => exact hcalls
          | finalize => exact hcalls
        rw [runCalls_unannounced hu hc, hcalls'.1, if_neg (by decide), Option.bind_some]
        exact hunopened _ (by intro h; cases h) hu (started_fs s fileName) (fun _ => rfl) hcalls'.2
      | true =>
        cases c with
        | announce size new representation =>
          by_cases hopen : CanOpen s.fs size new
          · obtain ⟨hok, hfits⟩ := hcalls hopen
            obtain ⟨s', hrun', hs'⟩ := runCalls_opened fileName representation cs hi hopen
            obtain ⟨f, hf, hclosed⟩ := finished_of_file e.env e.message url hs'
            rw [hrun', Option.bind_some, hok]
            refine ⟨f, hf, ⟨hclosed.1, Or.inr ⟨?_, hclosed.2.2.1⟩⟩, Or.inr ?_⟩
            · rw [hclosed.2.1]
              exact hopen.2.2
            · refine (succeeds_iff hi.fresh).mpr ⟨⟨hinst, hsome⟩, hinit, hok, size, new, cs, ?_, hfits⟩
              exact ⟨⟨representation, hcs⟩, hopen⟩
          · obtain ⟨s', file, hrun', hstage, hfile, hinvalid, hfs⟩ := runCalls_refused fileName representation cs hopen
            obtain ⟨f, hf, hstate⟩ := finished_of_invalid e.env e.message url hstage hfile hinvalid
              e.env.download.espErr
            rw [hrun', Option.bind_some]
            refine ⟨f, hf, ?_, Or.inl ?_⟩
            · rw [hstate]
              exact ⟨hstage, by rw [hfs]; exact hi.fs⟩
            · rw [hstate]
              exact hfs
        | data _ => cases hc
        | finalize => cases hc
  · exact ⟨_, run_of_not_starts hstarts, hi, Or.inl rfl⟩

/-- One byte, which any file system that has not opened a file yet takes. -/
def oneByte : Download where
  events := [.onHeader kContentLength [0x31] ⟨1, []⟩ []]

theorem oneByte_succeeds (hi : Idle s) (hstarts : Starts e.env e.long) (hpool : s.fs.memoryPool = 0) :
    Succeeds s { e with env := { e.env with download := oneByte } } :=
  (succeeds_iff hi.fresh).mpr
    ⟨hstarts, rfl, rfl, 1, ⟨1, []⟩, [], ⟨⟨[], rfl⟩, hpool, by decide, by decide⟩, trivial⟩

theorem sound_of_clean (hi : Idle s) (hf : e.run s = some f) (h : Clean s e f) : Sound s e := by
  intro hstarts
  have hstarts' := hstarts
  obtain ⟨hinst, hsome⟩ := hstarts
  obtain ⟨fileName, hname⟩ := Option.isSome_iff_exists.mp hsome
  have hu : (started s fileName).stageState.isFile = false :=
    (started_isFile s (length_autopilotFileName hname)).mpr (Or.inl hi.stage)
  have hinit : e.env.download.initialized = true := by
    cases hinit : e.env.download.initialized with
    | true => rfl
    | false =>
      obtain ⟨url, hrun⟩ := onCommand_of_starts (s := s) (m := e.message) hinst hname
      have hfailed : e.run s = some { answered (started s fileName) e.message .failed with requested := [url] } := by
        refine hrun.trans ?_
        unfold httpDownloadFileOverHttpGetByUrl
        rw [hinit]
        rfl
      obtain rfl := Option.some_inj.mp (hfailed.symm.trans hf)
      have hstage : (started s fileName).stage = .mavlinkInitial := h.stage
      rw [started_stage] at hstage
      cases hstage
  refine ⟨hinit, ?_⟩
  obtain ⟨url, hrun⟩ := run_of_download (s := s) hinst hname hinit
  rw [hrun] at hf
  cases hcs : e.env.download.calls with
  | nil =>
    rw [hcs] at hf
    have hfinished : finished (started s fileName) e.env e.message url e.env.download.espErr = some f := hf
    by_cases hok : e.env.download.espErr = .ok
    · refine ⟨hok, ?_⟩
      cases hkept : e.env.kept with
      | true => rfl
      | false =>
        rw [hok, (finished_of_not_file _ _ _ (by rw [started_stage]; decide) hu).2 hkept] at hfinished
        cases hfinished
    · rw [finished_of_error hok] at hfinished
      obtain rfl := Option.some_inj.mp hfinished
      have hstage : (started s fileName).stage = .mavlinkInitial := h.stage
      rw [started_stage] at hstage
      cases hstage
  | cons c cs =>
    rw [hcs] at hf
    cases hc : c.isAnnounce with
    | false =>
      rw [runCalls_unannounced hu hc] at hf
      have hgivenUp : cs.any Call.isAnnounce = false ∧ (e.env.download.espErr ≠ .ok ∨ e.env.kept = true) := by
        cases hany : cs.any Call.isAnnounce with
        | true =>
          rw [hany] at hf
          cases hf
        | false =>
          refine ⟨rfl, ?_⟩
          rw [hany, if_neg (by decide), Option.bind_some] at hf
          by_cases hok : e.env.download.espErr = .ok
          · cases hkept : e.env.kept with
            | true => exact Or.inr rfl
            | false =>
              rw [hok, (finished_of_not_file _ _ _ (s := { started s fileName with stage := .mavlinkInitial })
                (by intro h; cases h) hu).2 hkept] at hf
              cases hf
          · exact Or.inl hok
      cases c with
      | announce _ _ _ => cases hc
      | data _ => exact hgivenUp
      | finalize => exact hgivenUp
    | true =>
      cases c with
      | announce size new representation =>
        intro hopen
        obtain ⟨s', hrun', hs'⟩ := runCalls_opened fileName representation cs hi hopen
        rw [hrun', Option.bind_some] at hf
        -- the file system has had its file
        have hused : f.state.fs.memoryPool = new.pointer := by
          by_cases hok : e.env.download.espErr = .ok
          · obtain ⟨f', hf', hclosed⟩ := finished_of_file e.env e.message url hs'
            rw [hok, hf'] at hf
            obtain rfl := Option.some_inj.mp hf
            exact hclosed.2.1
          · rw [finished_of_error hok] at hf
            obtain rfl := Option.some_inj.mp hf
            rcases hs' with ⟨room, hreceiving⟩ | hclosed
            · exact hreceiving.2.1
            · exact hclosed.2.1
        have hsucceeds : Succeeds s e := by
          by_cases hsucceeds : Succeeds s e
          · exact hsucceeds
          · have hlater := h.later hsucceeds _ (oneByte_succeeds hi hstarts' hopen.1)
            have hfresh : f.state.fs.memoryPool = 0 → f.state.fs = .init := by
              intro hzero
              rw [hused] at hzero
              exact absurd hzero hopen.2.2
            obtain ⟨-, -, -, size', new', rest, ⟨-, hopen'⟩, -⟩ := (succeeds_iff hfresh).mp hlater
            have hzero := hopen'.1
            rw [hused] at hzero
            exact absurd hzero hopen.2.2
        obtain ⟨-, -, hok, size', new', rest, ⟨⟨representation', heq⟩, -⟩, hfits⟩ := (succeeds_iff hi.fresh).mp hsucceeds
        rw [hcs] at heq
        obtain ⟨⟨rfl, rfl, rfl⟩, rfl⟩ := List.cons.inj heq |>.imp_left Call.announce.inj
        exact ⟨hok, hfits⟩
      | data _ => cases hc
      | finalize => cases hc

/-- A command is clean exactly when it is sound. -/
theorem clean_iff_sound (hi : Idle s) : (∃ f, e.run s = some f ∧ Clean s e f) ↔ Sound s e := by
  constructor
  · intro h
    rcases h with ⟨f, hf, hclean⟩
    exact sound_of_clean hi hf hclean
  · intro h
    obtain ⟨f, hf, hidle, hfs⟩ := sound_step hi h
    refine ⟨f, hf, hidle.stage, Or.inr hidle.pool, fun hfails e' he' => ?_⟩
    exact (succeeds_congr hi.fresh (hfs.resolve_right hfails)).mp he'

end

/-! ## Any number of commands -/

/-- The service behind a command, with what the command has done. -/
def step (s : State × Option (Fetched F)) (e : Command F) : Option (State × Option (Fetched F)) :=
  (e.run s.1).map fun f => (f.state, some f)

/-- A sequence of commands is clean exactly when every one of them is sound. -/
theorem no_residue_iff (es : List (Command F)) :
    Through step (fun s e s' => ∃ f, s'.2 = some f ∧ Clean s.1 e f) (State.init .init, none) es ↔
      Allowed step (fun s e => Sound s.1 e) (State.init .init, none) es := by
  refine through_iff_allowed (I := fun s => Idle s.1) ?_ ?_ ⟨rfl, Or.inl rfl⟩
  · intro s e s' hs' hi hsound
    obtain ⟨f, hf, hidle, -⟩ := sound_step hi hsound
    have hs : step s e = some (f.state, some f) := by
      unfold step
      rw [hf]
      rfl
    obtain rfl := Option.some_inj.mp (hs.symm.trans hs')
    exact hidle
  · intro s e hi
    rw [← clean_iff_sound hi]
    constructor
    · intro h
      rcases h with ⟨s', hs', f, hf, hclean⟩
      obtain ⟨f', hf', rfl⟩ := Option.map_eq_some_iff.mp hs'
      obtain rfl := Option.some_inj.mp hf
      exact ⟨f', hf', hclean⟩
    · intro h
      rcases h with ⟨f, hf, hclean⟩
      exact ⟨(f.state, some f), by unfold step; rw [hf]; rfl, f, rfl, hclean⟩

/-- One of two bytes is received before the connection is lost. -/
def lostConnection : Download where
  events := [.onConnected, .onHeader kContentLength [0x32] ⟨4096, []⟩ [], .onData [7], .disconnected]
  espErr := .fail

/-- The command that loses its connection leaves the stage it was in, and its file. -/
theorem a_lost_connection_leaves_its_file_open :
    ¬ Through step (fun s e s' => ∃ f, s'.2 = some f ∧ Clean s.1 e f) (State.init .init, none)
      [{ env := { download := lostConnection }, message := ⟨255, 190, .commandLong fetchShow⟩, long := fetchShow }] := by
  intro h
  rcases h with ⟨s', hs', ⟨f, hf, hclean⟩, -⟩
  have hstage : (some s').map (fun s => s.2.map fun f => f.state.stage) = some (some .httpReceiving) := by
    rw [← hs']
    decide
  rw [Option.map_some, hf, Option.map_some, hclean.stage] at hstage
  cases hstage

end Esp32Cam.Mav.BufferedFileTransfer
