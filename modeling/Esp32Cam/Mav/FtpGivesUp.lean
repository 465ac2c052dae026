/-
  Esp32Cam.Mav.FtpGivesUp — a client that gets no answers gives up.

  The timer sends the request of the state again, ten times, and then gives the transfer
  up: in the middle of it by closing the session, which is tried as often. `remaining` is
  how often it is still to fire, counted by state and attempt.

  - `onHrTimer_remaining`: every firing brings it down by one.
  - `givesUpAt`: from every reachable state of a client at work, the timer alone takes it
    to idle, with the file released and the timer stopped, in at most twice as many
    firings as a request has attempts; each firing before leaves the timer armed and
    queues one request, the one of the state it leaves.
  - `gives_up_iff`: the last of the firings is only sound where no session has been
    opened. A session that could not be closed is given up with a log of the state's name,
    which is read from behind the table of names (`an_open_session_is_not_given_up`).
-/

import Esp32Cam.Mav.FtpAnswers

namespace Esp32Cam.Mav.BftFtpClient

open Esp32Cam.Lib Esp32Cam.Bft

/-! ## Reachable states -/

section
variable {c c' : BftFtpClient} {m : FileTransferProtocol}

theorem takes_notMax (ht : Takes c m c') (hmax : c.requestRepeat.state ≠ .max) : c'.requestRepeat.state ≠ .max := by
  cases ht with
  | nothing => exact hmax
  | stopped => exact hmax
  | granted => simp [sessionGranted, startOnce, handleTransferringTransition]
  | denied => simp [sessionDenied, push, handleIdleTransition]
  | acknowledged hs =>
    simp only [writeAcknowledged, push, startOnce, respond_requestRepeat, writeTaken_eq]
    split
    · simp
    · exact hmax
  | refused => simp [writeRefused, startOnce, handleClosingSessionTransition]
  | closed => simp [sessionClosed, handleIdleTransition]
  | notClosed => simp [sessionNotClosed, push, handleIdleTransition]

theorem fires_notMax (hf : Fires c c') (hmax : c.requestRepeat.state ≠ .max) : c'.requestRepeat.state ≠ .max := by
  cases hf with
  | idle => exact hmax
  | request => exact hmax
  | write =>
    simp only [startOnce, resendFileTransferRequest, notifyDelayedSend, seekFile_requestRepeat]
    exact hmax
  | max _ hs => exact absurd hs hmax
  | givenUp => simp [push, handleIdleTransition]
  | closing => simp [startOnce, notifyDelayedSend, push, handleClosingSessionTransition]

theorem step_notMax (e : Event) (hmax : c.requestRepeat.state ≠ .max) : (step c e).requestRepeat.state ≠ .max := by
  cases e with
  | onFileBufferingFinished fs file =>
    show (c.onFileBufferingFinished fs file).requestRepeat.state ≠ .max
    unfold onFileBufferingFinished
    split
    · simp [startOnce, resendSessionOpenRequest, notifyDelayedSend, handleCreatingSessionTransition]
    · exact hmax
  | message m =>
    cases m with
    | other msgid => exact hmax
    | fileTransferProtocol m => exact takes_notMax (process_takes c m) hmax
  | onHrTimer => exact fires_notMax (onHrTimer_fires c) hmax
  | onDelayedSend =>
    show c.onDelayedSend.requestRepeat.state ≠ .max
    unfold onDelayedSend
    split
    · exact hmax
    · rw [respond_requestRepeat]
      exact hmax

theorem run_notMax (es : List Event) (hmax : c.requestRepeat.state ≠ .max) :
    (run step c es).requestRepeat.state ≠ .max := by
  induction es generalizing c with
  | nil => exact hmax
  | cons e es ih => exact ih (step_notMax e hmax)

end

/-! ## How often the timer is still to fire -/

/-- The attempts left for the request of the state, and for the one to close the session behind it. -/
def attemptsLeft (iAttempt : Nat) : State → Nat
  | .idle => 0
  | .creatingSession => knMaxAttempts - iAttempt + 1
  | .transferring => knMaxAttempts - iAttempt + 1 + (knMaxAttempts + 1)
  | .closingSession => knMaxAttempts - iAttempt + 1
  | .max => knMaxAttempts - iAttempt + 1 + (knMaxAttempts + 1)

def remaining (c : BftFtpClient) : Nat := attemptsLeft c.requestRepeat.iAttempt c.requestRepeat.state

theorem attemptsLeft_le (iAttempt : Nat) (state : State) : attemptsLeft iAttempt state ≤ 2 * (knMaxAttempts + 1) := by
  cases state with
  | idle => exact Nat.zero_le _
  | creatingSession => simp only [attemptsLeft]; omega
  | transferring => simp only [attemptsLeft]; omega
  | closingSession => simp only [attemptsLeft]; omega
  | max => simp only [attemptsLeft]; omega

theorem attemptsLeft_succ {iAttempt : Nat} {state : State} (hlt : iAttempt < knMaxAttempts) (hs : state ≠ .idle) :
    attemptsLeft (iAttempt + 1) state + 1 = attemptsLeft iAttempt state := by
  cases state with
  | idle => exact absurd rfl hs
  | creatingSession => simp only [attemptsLeft]; omega
  | transferring => simp only [attemptsLeft]; omega
  | closingSession => simp only [attemptsLeft]; omega
  | max => simp only [attemptsLeft]; omega

theorem remaining_eq_zero (c : BftFtpClient) : c.remaining = 0 ↔ c.requestRepeat.state = .idle := by
  unfold remaining
  cases c.requestRepeat.state with
  | idle => simp [attemptsLeft]
  | creatingSession => simp [attemptsLeft]
  | transferring => simp [attemptsLeft]
  | closingSession => simp [attemptsLeft]
  | max => simp [attemptsLeft]

theorem onHrTimer_remaining {c : BftFtpClient} (hs : c.requestRepeat.state ≠ .idle) :
    c.onHrTimer.remaining + 1 = c.remaining := by
  have hfires := onHrTimer_fires c
  generalize c.onHrTimer = c' at hfires ⊢
  cases hfires with
  | idle _ hidle => exact absurd hidle hs
  | request hlt _ => exact attemptsLeft_succ hlt hs
  | write hlt _ =>
    simp only [remaining, startOnce, resendFileTransferRequest, notifyDelayedSend, seekFile_requestRepeat]
    exact attemptsLeft_succ hlt hs
  | max hlt _ => exact attemptsLeft_succ hlt hs
  | givenUp hge hstate =>
    show 0 + 1 = attemptsLeft c.requestRepeat.iAttempt c.requestRepeat.state
    rcases hstate with hstate | hstate | hstate
    · exact absurd hstate hs
    · rw [hstate]
      simp only [attemptsLeft]
      omega
    · rw [hstate]
      simp only [attemptsLeft]
      omega
  | closing hge hstate =>
    show attemptsLeft 0 .closingSession + 1 = attemptsLeft c.requestRepeat.iAttempt c.requestRepeat.state
    rcases hstate with hstate | hstate
    · rw [hstate]
      simp only [attemptsLeft]
      omega
    · rw [hstate]
      simp only [attemptsLeft]
      omega

/-! ## One firing -/

/-- The timer is armed again, and one more message is queued: the request of the state. -/
structure Resends (c c' : BftFtpClient) : Prop where
  busy : c'.requestRepeat.state ≠ .idle
  armed : c'.timerArmed = true
  queued : c'.delayedSends = c.delayedSends + 1
  request : ∃ op, awaited c'.requestRepeat.state = some op ∧ ∀ m, isOfOp op (c'.request m) = true

/-- The transfer is over, and nothing is queued for it. -/
structure GivenUp (c c' : BftFtpClient) : Prop where
  idle : c'.requestRepeat.state = .idle
  released : c'.requestRepeat.bftFile = none
  stopped : c'.timerArmed = false
  quiet : c'.delayedSends = c.delayedSends

/-- The request of a working state is the one it waits for an answer to. -/
theorem request_isOfOp {c : BftFtpClient} (hs : c.requestRepeat.state ≠ .idle) (hmax : c.requestRepeat.state ≠ .max) :
    ∃ op, awaited c.requestRepeat.state = some op ∧ ∀ m, isOfOp op (c.request m) = true := by
  unfold request
  cases hstate : c.requestRepeat.state with
  | idle => exact absurd hstate hs
  | creatingSession => exact ⟨.openFileWo, rfl, fun _ => rfl⟩
  | transferring => exact ⟨.writeFile, rfl, fun _ => rfl⟩
  | closingSession => exact ⟨.terminateSession, rfl, fun _ => rfl⟩
  | max => exact absurd hstate hmax

@[simp] theorem seekFile_delayedSends (c : BftFtpClient) (offset : Int) :
    (c.seekFile offset).delayedSends = c.delayedSends := by
  unfold seekFile
  split
  · rfl
  · rfl

theorem onHrTimer_resends_or_gives_up {c : BftFtpClient} (hs : c.requestRepeat.state ≠ .idle)
    (hmax : c.requestRepeat.state ≠ .max) : Resends c c.onHrTimer ∨ GivenUp c c.onHrTimer := by
  have hmax' := fires_notMax (onHrTimer_fires c) hmax
  have hfires := onHrTimer_fires c
  generalize c.onHrTimer = c' at hfires hmax' ⊢
  cases hfires with
  | idle _ hidle => exact absurd hidle hs
  | request _ _ => exact Or.inl ⟨hs, rfl, rfl, request_isOfOp hs hmax'⟩
  | write _ _ =>
    have hstate : (c.stopTimer.handleFailedAttemptCommon.resendFileTransferRequest.startOnce).requestRepeat.state ≠ .idle := by
      simp only [startOnce, resendFileTransferRequest, notifyDelayedSend, seekFile_requestRepeat]
      exact hs
    refine Or.inl ⟨hstate, rfl, ?_, request_isOfOp hstate hmax'⟩
    simp [startOnce, resendFileTransferRequest, notifyDelayedSend, handleFailedAttemptCommon, stopTimer]
  | max _ hstate => exact absurd hstate hmax
  | givenUp _ _ => exact Or.inr ⟨rfl, rfl, rfl, rfl⟩
  | closing _ _ =>
    have hstate : ((c.stopTimer.handleClosingSessionTransition.push attemptFailed).notifyDelayedSend.startOnce
      ).requestRepeat.state ≠ .idle := by
      simp [startOnce, notifyDelayedSend, push, handleClosingSessionTransition]
    exact Or.inl ⟨hstate, rfl, rfl, request_isOfOp hstate hmax'⟩

/-! ## The timer alone -/

def fired (c : BftFtpClient) (j : Nat) : BftFtpClient := run step c (List.replicate j .onHrTimer)

/-- The `k`-th firing gives the transfer up, and every one before it sends a request again. -/
structure GivesUpAt (c : BftFtpClient) (k : Nat) : Prop where
  resends : ∀ j, j + 1 < k → Resends (c.fired j) (c.fired (j + 1))
  givenUp : ∃ j, k = j + 1 ∧ GivenUp (c.fired j) (c.fired k)

theorem givesUpAt_remaining {c : BftFtpClient} {k : Nat} (hk : c.remaining = k + 1) (hmax : c.requestRepeat.state ≠ .max) :
    GivesUpAt c (k + 1) := by
  induction k generalizing c with
  | zero =>
    have hs : c.requestRepeat.state ≠ .idle := fun hidle => by simp [(remaining_eq_zero c).mpr hidle] at hk
    have hzero : c.onHrTimer.remaining = 0 := by
      have hone := onHrTimer_remaining hs
      omega
    refine ⟨fun j hj => absurd hj (by omega), 0, rfl, ?_⟩
    rcases onHrTimer_resends_or_gives_up hs hmax with hresends | hgiven
    · exact absurd ((remaining_eq_zero _).mp hzero) hresends.busy
    · exact hgiven
  | succ k ih =>
    have hs : c.requestRepeat.state ≠ .idle := fun hidle => by simp [(remaining_eq_zero c).mpr hidle] at hk
    have hnext : c.onHrTimer.remaining = k + 1 := by
      have hone := onHrTimer_remaining hs
      omega
    have hrest := ih hnext (fires_notMax (onHrTimer_fires c) hmax)
    have hfirst : Resends c c.onHrTimer := by
      rcases onHrTimer_resends_or_gives_up hs hmax with hresends | hgiven
      · exact hresends
      · rw [(remaining_eq_zero _).mpr hgiven.idle] at hnext
        cases hnext
    constructor
    · intro j hj
      cases j with
      | zero => exact hfirst
      | succ j => exact hrest.resends j (by omega)
    · obtain ⟨j, hj, hgiven⟩ := hrest.givenUp
      exact ⟨j + 1, by omega, hgiven⟩

/-- A client at work is given up in at most twice as many firings as a request has attempts. -/
theorem givesUpAt {c : BftFtpClient} (hs : c.requestRepeat.state ≠ .idle) (hmax : c.requestRepeat.state ≠ .max) :
    ∃ k ≤ 2 * (knMaxAttempts + 1), GivesUpAt c k := by
  have hpos : c.remaining ≠ 0 := fun hzero => hs ((remaining_eq_zero c).mp hzero)
  obtain ⟨k, hk⟩ := Nat.exists_eq_succ_of_ne_zero hpos
  refine ⟨k + 1, ?_, givesUpAt_remaining hk hmax⟩
  rw [← Nat.succ_eq_add_one, ← hk]
  exact attemptsLeft_le _ _

/-! ## The log of the last attempt -/

def runLogged (c : BftFtpClient) (es : List Event) : Option BftFtpClient := es.foldlM stepLogged c

def firedLogged (c : BftFtpClient) (j : Nat) : Option BftFtpClient := runLogged c (List.replicate j .onHrTimer)

def GivesUp (c : BftFtpClient) : Prop :=
  ∃ k ≤ 2 * (knMaxAttempts + 1), c.firedLogged k = some (c.fired k) ∧ GivesUpAt c k

section
variable {c c' : BftFtpClient}

/-- What the log comes to a name in is what `step` does. -/
theorem stepLogged_some {e : Event} (h : c.stepLogged e = some c') : c.step e = c' := by
  cases e with
  | onHrTimer =>
    simp only [stepLogged, onHrTimerLogged] at h
    split at h
    · obtain ⟨name, -, heq⟩ := Option.map_eq_some_iff.mp h
      exact heq
    · exact Option.some_inj.mp h
  | onFileBufferingFinished fs file => exact Option.some_inj.mp h
  | message m => exact Option.some_inj.mp h
  | onDelayedSend => exact Option.some_inj.mp h

theorem runLogged_some {es : List Event} (h : c.runLogged es = some c') : run step c es = c' := by
  induction es generalizing c with
  | nil => exact Option.some_inj.mp h
  | cons e es ih =>
    rw [runLogged, List.foldlM_cons] at h
    obtain ⟨c₁, hstep, hrest⟩ := Option.bind_eq_some_iff.mp h
    rw [run_cons, stepLogged_some hstep]
    exact ih hrest

/-- The log has a name for the state, or is not come to. -/
theorem onHrTimerLogged_eq (h : c.requestRepeat.iAttempt < knMaxAttempts ∨
    c.requestRepeat.state ≠ .closingSession ∧ c.requestRepeat.state ≠ .max) : c.onHrTimerLogged = some c.onHrTimer := by
  unfold onHrTimerLogged
  split
  · rename_i hge
    obtain ⟨hclosing, hmax⟩ := h.resolve_left (by omega)
    unfold getCurrentStateAsString
    cases hstate : c.requestRepeat.state with
    | idle | creatingSession | transferring => rfl
    | closingSession => exact absurd hstate hclosing
    | max => exact absurd hstate hmax
  · rfl

theorem onHrTimerLogged_none (hge : knMaxAttempts ≤ c.requestRepeat.iAttempt) (hs : c.requestRepeat.state = .closingSession) :
    c.onHrTimerLogged = none := by
  rw [onHrTimerLogged, if_pos hge, getCurrentStateAsString, hs]
  rfl

/-- A firing that goes on with the transfer comes to a name, and leaves a session that is being created. -/
theorem resends_logged (h : Resends c c.onHrTimer) (hmax : c.requestRepeat.state ≠ .max) :
    c.onHrTimerLogged = some c.onHrTimer ∧
      (c.onHrTimer.requestRepeat.state = .creatingSession ↔ c.requestRepeat.state = .creatingSession) := by
  have hbusy := h.busy
  have hfires := onHrTimer_fires c
  constructor
  · refine onHrTimerLogged_eq ?_
    generalize c.onHrTimer = c' at hbusy hfires
    cases hfires with
    | idle hlt _ | request hlt _ | write hlt _ | max hlt _ => exact Or.inl hlt
    | givenUp _ _ => exact absurd rfl hbusy
    | closing _ hstate => exact Or.inr ⟨by rw [hstate.resolve_right hmax]; decide, hmax⟩
  · generalize c.onHrTimer = c' at hbusy hfires
    cases hfires with
    | idle _ _ | request _ _ => exact Iff.rfl
    | write _ _ =>
      simp only [startOnce, resendFileTransferRequest, notifyDelayedSend, seekFile_requestRepeat]
      exact Iff.rfl
    | max _ hstate => exact absurd hstate hmax
    | givenUp _ _ => exact absurd rfl hbusy
    | closing _ hstate =>
      rw [hstate.resolve_right hmax]
      exact iff_of_false (fun h => by cases h) (by decide)

/-- The firing that gives the transfer up comes to a name where the session is being created. -/
theorem givenUp_logged (h : GivenUp c c.onHrTimer) (hs : c.requestRepeat.state ≠ .idle)
    (hmax : c.requestRepeat.state ≠ .max) :
    c.onHrTimerLogged = some c.onHrTimer ↔ c.requestRepeat.state = .creatingSession := by
  have hidle := h.idle
  have hfires := onHrTimer_fires c
  constructor
  · intro hlogged
    by_contra hne
    have hnone : c.onHrTimerLogged = none := by
      generalize c.onHrTimer = c' at hidle hfires
      cases hfires with
      | idle _ hstate => exact absurd hstate hs
      | request _ _ => exact absurd hidle hs
      | write _ _ =>
        simp only [startOnce, resendFileTransferRequest, notifyDelayedSend, seekFile_requestRepeat] at hidle
        exact absurd hidle hs
      | max _ hstate => exact absurd hstate hmax
      | givenUp hge hstate => exact onHrTimerLogged_none hge ((hstate.resolve_left hs).resolve_left hne)
      | closing _ _ => cases hidle
    rw [hnone] at hlogged
    cases hlogged
  · intro hcreating
    exact onHrTimerLogged_eq (Or.inr ⟨by rw [hcreating]; decide, hmax⟩)

/-- As long as the transfer goes on, the log comes to names. -/
theorem firedLogged_of_resends {n : Nat} (hmax : c.requestRepeat.state ≠ .max)
    (h : ∀ j < n, Resends (c.fired j) (c.fired (j + 1))) :
    (∀ j ≤ n, c.firedLogged j = some (c.fired j)) ∧
      ((c.fired n).requestRepeat.state = .creatingSession ↔ c.requestRepeat.state = .creatingSession) := by
  induction n generalizing c with
  | zero =>
    refine ⟨fun j hj => ?_, Iff.rfl⟩
    obtain rfl := Nat.le_zero.mp hj
    rfl
  | succ n ih =>
    have hfirst : Resends c c.onHrTimer := h 0 (Nat.succ_pos n)
    obtain ⟨hlogged, hcreating⟩ := resends_logged hfirst hmax
    obtain ⟨hrest, hsame⟩ := ih (c := c.onHrTimer) (fires_notMax (onHrTimer_fires c) hmax)
      fun j hj => h (j + 1) (Nat.succ_lt_succ hj)
    refine ⟨fun j hj => ?_, hsame.trans hcreating⟩
    cases j with
    | zero => rfl
    | succ j =>
      rw [firedLogged, List.replicate_succ, runLogged, List.foldlM_cons, stepLogged, hlogged]
      exact hrest j (Nat.le_of_succ_le_succ hj)

theorem fired_succ (c : BftFtpClient) (j : Nat) : c.fired (j + 1) = (c.fired j).onHrTimer := by
  rw [fired, List.replicate_succ', run_append]
  rfl

theorem firedLogged_succ {j : Nat} (h : c.firedLogged j = some (c.fired j)) :
    c.firedLogged (j + 1) = (c.fired j).onHrTimerLogged := by
  rw [firedLogged, List.replicate_succ', runLogged, List.foldlM_append]
  show (c.firedLogged j).bind _ = _
  rw [h]
  exact bind_pure _

/-- Where the transfer is given up, the log comes to names up to the last firing, and in it
    where the session is still being created. -/
theorem givesUpAt_logged {k : Nat} (h : GivesUpAt c k) (hs : c.requestRepeat.state ≠ .idle)
    (hmax : c.requestRepeat.state ≠ .max) :
    (∀ j < k, c.firedLogged j = some (c.fired j)) ∧
      (c.firedLogged k = some (c.fired k) ↔ c.requestRepeat.state = .creatingSession) := by
  obtain ⟨j, rfl, hgiven⟩ := h.givenUp
  obtain ⟨hlogged, hcreating⟩ := firedLogged_of_resends hmax fun i hi => h.resends i (Nat.succ_lt_succ hi)
  refine ⟨fun i hi => hlogged i (Nat.le_of_lt_succ hi), ?_⟩
  have hbusy : (c.fired j).requestRepeat.state ≠ .idle := by
    cases j with
    | zero => exact hs
    | succ j => exact (h.resends j (Nat.lt_succ_self _)).busy
  have hnotMax : (c.fired j).requestRepeat.state ≠ .max := run_notMax _ hmax
  rw [firedLogged_succ (hlogged j le_rfl), fired_succ, ← hcreating]
  rw [fired_succ] at hgiven
  exact givenUp_logged hgiven hbusy hnotMax

theorem givesUp_iff (hs : c.requestRepeat.state ≠ .idle) (hmax : c.requestRepeat.state ≠ .max) :
    GivesUp c ↔ c.requestRepeat.state = .creatingSession := by
  constructor
  · intro h
    obtain ⟨k, -, hlogged, hgives⟩ := h
    exact (givesUpAt_logged hgives hs hmax).2.mp hlogged
  · intro hcreating
    obtain ⟨k, hk, hgives⟩ := givesUpAt hs hmax
    exact ⟨k, hk, (givesUpAt_logged hgives hs hmax).2.mpr hcreating, hgives⟩

end

/-! ## Giving up -/

/-- **Giving up.** From every reachable state of a client at work, the timer alone brings it to idle as it should exactly
    where the session is still being created. From any other one it does so but for the last firing, of which the log
    reads the state's name from behind the table. -/
theorem gives_up_iff (fs : SingleBufferRamFileSystem) (sessionId : UInt32) (fileOffset : Int) (fileSize : Nat)
    (es : List Event) (c : BftFtpClient) (hrun : (init fs sessionId fileOffset fileSize).runLogged es = some c)
    (hs : c.requestRepeat.state ≠ .idle) :
    (GivesUp c ↔ c.requestRepeat.state = .creatingSession) ∧
      ∃ k ≤ 2 * (knMaxAttempts + 1), GivesUpAt c k ∧ ∀ j < k, c.firedLogged j = some (c.fired j) := by
  have hmax : c.requestRepeat.state ≠ .max := by
    rw [← runLogged_some hrun]
    exact run_notMax es fun h => by cases h
  refine ⟨givesUp_iff hs hmax, ?_⟩
  obtain ⟨k, hk, hgives⟩ := givesUpAt hs hmax
  exact ⟨k, hk, hgives, (givesUpAt_logged hgives hs hmax).1⟩

/-- Nobody answers to the request to open the file. -/
theorem an_unanswered_client_gives_up : GivesUp waitingClient :=
  (gives_up_iff threeByteFs 0 0 0 [.onFileBufferingFinished threeByteFs threeByteFile] waitingClient rfl (by decide)).1.mpr rfl

/-- The file is opened, and nobody answers to the writes. -/
theorem an_open_session_is_not_given_up :
    ∃ c, (init threeByteFs 0 0 0).runLogged
        [.onFileBufferingFinished threeByteFs threeByteFile, answer .openFileWo .ack 3] = some c ∧
      c.requestRepeat.state ≠ .idle ∧ c.timerArmed = true ∧ ¬ GivesUp c := by
  refine ⟨waitingClient.step (answer .openFileWo .ack 3), rfl, by decide +kernel, by decide +kernel, ?_⟩
  rw [givesUp_iff (by decide +kernel) (by decide +kernel)]
  decide +kernel

end Esp32Cam.Mav.BftFtpClient
