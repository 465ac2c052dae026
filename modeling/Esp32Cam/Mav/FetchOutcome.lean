/-
  Esp32Cam.Mav.FetchOutcome — what the answer to a fetch says of the file.

  `FetchOutcome` is what the answer is meant to say: ACCEPTED when whoever waits for a
  file has been notified of one that is open and has the body in it, FAILED when nobody
  has been notified of anything.

  The answer is FAILED in any case, and the client's end has closed the file before
  anybody is notified. `fetch_outcome_iff`: the answer is right exactly when the fetch
  fails before the notification, and in good order. `a_good_download_is_answered_with_failed`.
-/

import Esp32Cam.Mav.FetchFile

namespace Esp32Cam.Mav.BufferedFileTransfer

open Esp32Cam.Bft Esp32Cam.Lib

variable {F : Type} [SinglePrecision F]

/-! ## The command -/

theorem length_formatInt_le (n : Int) : (formatInt (int32 n)).length ≤ 11 := by
  have hnat : (int32 n).natAbs < 10 ^ 10 := by
    unfold int32 uint32
    split <;> omega
  have hdigits : (Nat.toDigits 10 (int32 n).natAbs).length ≤ 10 :=
    (Nat.length_toDigits_le_iff (by decide) (by decide)).mpr hnat
  unfold formatInt
  rw [List.length_append, List.length_map]
  split
  · simp only [List.length_singleton]
    omega
  · simp only [List.length_nil]
    omega

/-- The URL always fits. -/
theorem tryEncodeRequestUrl_isSome (c : CommandLong F) : ∃ url, tryEncodeRequestUrl c = some url := by
  have hdigits := length_formatInt_le (SinglePrecision.lround c.param1)
  have hlength : ¬ kMaxUrlLength ≤
      (kHttpPreamble ++ [0x2F] ++ formatInt (mavlinkMessageFetchFileGetFileId c) ++ [0x2E, 0x62, 0x69, 0x6E]).length := by
    simp only [List.length_append, mavlinkMessageFetchFileGetFileId, kHttpPreamble, kMaxUrlLength, List.length_cons,
      List.length_nil]
    omega
  exact ⟨_, if_neg hlength⟩

theorem length_autopilotFileName {c : CommandLong F} {fileName : List UInt8}
    (h : tryEncodeAutopilotFileName c = some fileName) : fileName.length < State.kFileNameSize := by
  obtain ⟨name, -, hlength⟩ := Option.bind_eq_some_iff.mp h
  split at hlength
  · cases hlength
  · rename_i hfits
    obtain rfl := Option.some_inj.mp hlength
    exact Nat.lt_of_not_le hfits

def Starts (env : Env) (c : CommandLong F) : Prop :=
  env.bufferedFileTransferInstance = true ∧ (tryEncodeAutopilotFileName c).isSome = true

def started (s : State) (fileName : List UInt8) : State := (s.transferIntoHttpInitial fileName).1

def finished (s : State) (env : Env) (m : Message F) (url : List UInt8) (espErr : EspErr) : Option (Fetched F) :=
  if espErr ≠ .ok then some { answered s m .failed with requested := [url] }
  else
    let notified := [⟨s.stageState, s.fs⟩]
    (notify s env.kept).bind fun s =>
      s.transferIntoMavlinkInitial.map fun s => { answered s m .accepted with notified, requested := [url] }

section
variable {s : State} {env : Env} {m : Message F} {c : CommandLong F} {fileName : List UInt8}

theorem onCommand_of_not_starts (h : ¬ Starts env c) : onCommandLongFetchFile s env m c = some (answered s m .failed) := by
  obtain ⟨url, hurl⟩ := tryEncodeRequestUrl_isSome c
  unfold onCommandLongFetchFile
  rw [hurl]
  dsimp only
  cases hinst : env.bufferedFileTransferInstance with
  | false => rfl
  | true =>
    rw [Bool.not_true, if_neg (by decide)]
    cases hname : tryEncodeAutopilotFileName c with
    | none => rfl
    | some fileName => exact absurd ⟨hinst, by rw [hname]; rfl⟩ h

theorem onCommand_of_starts (hinst : env.bufferedFileTransferInstance = true)
    (hname : tryEncodeAutopilotFileName c = some fileName) :
    ∃ url, onCommandLongFetchFile s env m c =
      (httpDownloadFileOverHttpGetByUrl (started s fileName) env.download).bind fun (s, espErr) =>
        finished s env m url espErr := by
  obtain ⟨url, hurl⟩ := tryEncodeRequestUrl_isSome c
  refine ⟨url, ?_⟩
  unfold onCommandLongFetchFile
  rw [hurl]
  dsimp only
  rw [hinst, Bool.not_true, if_neg (by decide), hname]
  rfl

theorem started_stage (s : State) (fileName : List UInt8) : (started s fileName).stage = .httpInitial := rfl

theorem started_fs (s : State) (fileName : List UInt8) : (started s fileName).fs = s.fs := by
  unfold started State.transferIntoHttpInitial
  cases s.stage with
  | mavlinkInitial =>
    dsimp only
    split <;> rfl
  | _ => rfl

/-- The shared memory has no file in it when the client starts. -/
def NoFile (s : State) : Prop := s.stage = .mavlinkInitial ∨ s.stageState.isFile = false

theorem started_isFile (s : State) (hlength : fileName.length < State.kFileNameSize) :
    (started s fileName).stageState.isFile = false ↔ NoFile s := by
  unfold started State.transferIntoHttpInitial NoFile
  cases hstage : s.stage with
  | mavlinkInitial =>
    dsimp only
    rw [if_neg (Nat.not_le_of_lt hlength)]
    exact iff_of_true rfl (Or.inl rfl)
  | _ => simp

theorem download_eq (s : State) {d : Download} (h : d.initialized = true) :
    httpDownloadFileOverHttpGetByUrl s d = (runCalls s d.calls).map (·, d.espErr) := by
  unfold httpDownloadFileOverHttpGetByUrl
  rw [h, Bool.not_true, if_neg (by decide), handleEvents_eq]
  rfl

/-! ## The answer -/

def Download.body (d : Download) : List UInt8 :=
  d.calls.flatMap fun
    | .data chunk => chunk
    | _ => []

/-- The file somebody is notified of is open, and has these bytes. -/
def Notified.Holds (n : Notified) (body : List UInt8) : Prop :=
  ∃ file, n.stageState = .httpReceiving file ∧ file.isValid = true ∧ file.fileDescriptor.raw = n.fs.memoryPool ∧
    n.fs.memoryPoolNextWritePosition = body.length ∧ n.fs.pool.take body.length = body

def Fetched.Whole (f : Fetched F) (d : Download) : Prop := ∃ n ∈ f.notified, n.Holds d.body

def ackOf (m : Message F) (result : MavResult) : Message F :=
  .pack Globals.getCompId (.commandAck (.makeFrom m MavCmd.user2 result))

/-- The answer says what has become of the body. -/
def FetchOutcome (m : Message F) (d : Download) (r : Option (Fetched F)) : Prop :=
  ∃ f, r = some f ∧
    (f.Whole d ∧ f.responses = [ackOf m .accepted] ∨
      ¬ f.Whole d ∧ f.responses = [ackOf m .failed] ∧ f.notified = [])

/-- The fetch does not get as far as the notification, and nothing that is no file is
    closed on the way. -/
def FailsInOrder (s : State) (env : Env) (c : CommandLong F) : Prop :=
  Starts env c →
    env.download.initialized = false ∨
      env.download.espErr ≠ .ok ∧ ¬ (NoFile s ∧ Misordered env.download.calls)

omit [SinglePrecision F] in
theorem ackOf_injective {r r' : MavResult} (h : ackOf m r = ackOf m r') : r = r' :=
  congrArg CommandAck.result (Body.commandAck.inj (congrArg Message.body h))

omit [SinglePrecision F] in
theorem finished_responses {espErr : EspErr} {url : List UInt8} {f : Fetched F} (h : finished s env m url espErr = some f) :
    f.responses = [ackOf m .failed] := by
  unfold finished at h
  split at h
  · obtain rfl := Option.some_inj.mp h
    rfl
  · obtain ⟨s₁, -, h⟩ := Option.bind_eq_some_iff.mp h
    obtain ⟨s₂, -, rfl⟩ := Option.map_eq_some_iff.mp h
    rfl

/-- Every answer says FAILED. -/
theorem onCommand_responses {f : Fetched F} (h : onCommandLongFetchFile s env m c = some f) :
    f.responses = [ackOf m .failed] := by
  by_cases hstarts : Starts env c
  · obtain ⟨hinst, hsome⟩ := hstarts
    obtain ⟨fileName, hname⟩ := Option.isSome_iff_exists.mp hsome
    obtain ⟨url, hcommand⟩ := onCommand_of_starts (s := s) (m := m) hinst hname
    rw [hcommand] at h
    obtain ⟨⟨s', espErr⟩, -, h⟩ := Option.bind_eq_some_iff.mp h
    exact finished_responses h
  · rw [onCommand_of_not_starts hstarts] at h
    obtain rfl := Option.some_inj.mp h
    rfl

omit [SinglePrecision F] in
theorem outcome_of_unnotified {f : Fetched F} (hresponses : f.responses = [ackOf m .failed]) (hnotified : f.notified = [])
    (d : Download) : FetchOutcome m d (some f) := by
  refine ⟨f, rfl, Or.inr ⟨?_, hresponses, hnotified⟩⟩
  intro h
  rcases h with ⟨n, hn, -⟩
  rw [hnotified] at hn
  cases hn

omit [SinglePrecision F] in
/-- Behind a notification the answer is never right. -/
theorem not_outcome_of_ok {s : State} (url : List UInt8) : ¬ FetchOutcome m env.download (finished s env m url .ok) := by
  intro h
  rcases h with ⟨f, hf, h⟩
  simp only [finished, ne_eq, not_true_eq_false, if_false] at hf
  obtain ⟨s₁, -, hf⟩ := Option.bind_eq_some_iff.mp hf
  obtain ⟨s₂, -, rfl⟩ := Option.map_eq_some_iff.mp hf
  rcases h with ⟨-, hresponses⟩ | ⟨-, -, hnotified⟩
  · have hack : ackOf m .failed = ackOf m .accepted := (List.cons.inj hresponses).1
    cases ackOf_injective hack
  · cases hnotified

end

/-- The answer is right exactly when the fetch fails before anybody is notified. -/
theorem fetch_outcome_iff (s : State) (env : Env) (m : Message F) (c : CommandLong F) :
    FetchOutcome m env.download (onCommandLongFetchFile s env m c) ↔ FailsInOrder s env c := by
  by_cases hstarts : Starts env c
  · obtain ⟨hinst, hsome⟩ := hstarts
    obtain ⟨fileName, hname⟩ := Option.isSome_iff_exists.mp hsome
    obtain ⟨url, hcommand⟩ := onCommand_of_starts (s := s) (m := m) hinst hname
    rw [hcommand]
    have hin : FailsInOrder s env c ↔ env.download.initialized = false ∨
        env.download.espErr ≠ .ok ∧ ¬ (NoFile s ∧ Misordered env.download.calls) :=
      ⟨fun h => h ⟨hinst, hsome⟩, fun h _ => h⟩
    rw [hin]
    cases hinit : env.download.initialized with
    | false =>
      have hdownload : httpDownloadFileOverHttpGetByUrl (started s fileName) env.download = some (started s fileName, .fail) := by
        unfold httpDownloadFileOverHttpGetByUrl
        rw [hinit, Bool.not_false, if_pos rfl]
      rw [hdownload]
      exact iff_of_true (outcome_of_unnotified rfl rfl env.download) (Or.inl rfl)
    | true =>
      have hnone := runCalls_eq_none_iff (started_stage s fileName) env.download.calls
      rw [started_isFile s (length_autopilotFileName hname)] at hnone
      rw [download_eq _ hinit]
      cases hrun : runCalls (started s fileName) env.download.calls with
      | none =>
        have hbad := hnone.mp hrun
        refine iff_of_false ?_ ?_
        · intro h
          rcases h with ⟨f, hf, -⟩
          cases hf
        · intro h
          rcases h with h | ⟨-, h⟩
          · cases h
          · exact h hbad
      | some s' =>
        have hgood : ¬ (NoFile s ∧ Misordered env.download.calls) := by
          intro hbad
          rw [hnone.mpr hbad] at hrun
          cases hrun
        by_cases hok : env.download.espErr = .ok
        · refine iff_of_false ?_ ?_
          · show ¬ FetchOutcome m env.download (finished s' env m url env.download.espErr)
            rw [hok]
            exact not_outcome_of_ok url
          · intro h
            rcases h with h | ⟨h, -⟩
            · cases h
            · exact h hok
        · refine iff_of_true ?_ (Or.inr ⟨hok, hgood⟩)
          show FetchOutcome m env.download (finished s' env m url env.download.espErr)
          unfold finished
          rw [if_pos hok]
          exact outcome_of_unnotified rfl rfl env.download
  · rw [onCommand_of_not_starts hstarts]
    exact iff_of_true (outcome_of_unnotified rfl rfl env.download) (fun h => absurd h hstarts)

/-- The command for file 0, the show. -/
def fetchShow : CommandLong Int where
  targetSystem := 1
  targetComponent := 240
  command := MavCmd.user2
  confirmation := 0
  param1 := 0
  param2 := 0
  param3 := 0
  param4 := 0
  param5 := 0
  param6 := 0
  param7 := 0

/-- Two bytes are announced, received and ended. -/
def goodDownload : Download where
  events := [.onConnected, .onHeader kContentLength [0x32] ⟨4096, []⟩ [], .onData [7, 8], .onFinish, .disconnected]

/-- A download without any trouble is answered with FAILED, behind a notification of a closed file. -/
theorem a_good_download_is_answered_with_failed :
    ¬ FetchOutcome ⟨255, 190, .commandLong fetchShow⟩ goodDownload
      (onCommandLongFetchFile (.init .init) { download := goodDownload } ⟨255, 190, .commandLong fetchShow⟩ fetchShow) := by
  intro h
  rcases h with ⟨f, hf, h⟩
  have hresponses : some f.responses = some [ackOf ⟨255, 190, .commandLong fetchShow⟩ .failed] := by
    rw [show some f.responses = (some f).map Fetched.responses from rfl, ← hf]
    decide
  have hnotified : some f.notified.length = some 1 := by
    rw [show some f.notified.length = (some f).map fun f => f.notified.length from rfl, ← hf]
    decide
  rcases h with ⟨-, haccepted⟩ | ⟨-, -, hnone⟩
  · rw [haccepted] at hresponses
    exact absurd hresponses (by decide)
  · rw [hnone] at hnotified
    exact absurd hnotified (by decide)

end Esp32Cam.Mav.BufferedFileTransfer
