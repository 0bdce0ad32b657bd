import Ironclaw.Turns.Roster

/-!
# How a call about one run ends

The record is taken out and goes back as it was, or its successor is put in: the same run
with its status kept, parked on a gate, asked to stop, queued again, or ended.  What such a
call does to the store is proved once for each of these ends.
-/

namespace Ironclaw.Turns

open Lib StatusTransition BlockedReason

namespace Inner

/-- The successor of a run is put in its place. -/
structure Rewritten (inner after : Inner) (runId : TurnRunId) (record changed : RunRecord) :
    Prop where
  found : inner.records.get runId = some record
  records : after.records = (inner.records.remove runId).insert changed.runId changed := by rfl
  own : changed.runId = record.runId := by rfl
  same : record.SameRun changed := by exact {}
  turns : after.turns = inner.turns := by rfl
  limits : after.limits = inner.limits := by rfl
  trees : after.treeReservations = inner.treeReservations := by rfl
  memory : after.memory = inner.memory := by rfl

structure Continued (inner after : Inner) (runId : TurnRunId) (record changed : RunRecord) : Prop
    extends Rewritten inner after runId record changed where
  admission : after.admissionReservations = inner.admissionReservations := by rfl
  ended : after.terminalRuns = inner.terminalRuns := by rfl

/-- The run goes on with a status it may not have had, under the next version of its lock. -/
structure Moved (inner after : Inner) (runId : TurnRunId) (record changed : RunRecord) : Prop
    extends Continued inner after runId record changed where
  wasLive : record.status.isTerminal = false
  idle : record.status ≠ .queued
  live : changed.status.isTerminal = false
  lease : record.LeaseShape → changed.LeaseShape
  locks : ∃ updatedAt, after.activeLocks = (inner.updateActiveLock changed updatedAt).activeLocks
  slots : after.concurrency = inner.concurrency.follow
    (.between record.status changed.status) (slotInfoFor changed)
  left : between record.status changed.status ≠ .enteredRunning

structure Closed (inner after : Inner) (runId : TurnRunId) (record closed : RunRecord) : Prop
    extends Rewritten inner after runId record closed where
  wasLive : record.status.isTerminal = false
  ended : closed.status.isTerminal = true
  lease : record.LeaseShape → closed.LeaseShape
  locks : after.activeLocks = (inner.releaseActiveLock closed).activeLocks
  queue : after.queuedRuns = inner.queuedRuns.filter (· ≠ closed.runId)
  admission : after.admissionReservations =
    inner.admissionReservations.modify closed.runId fun reservation =>
      { reservation with released := true }
  slots : after.concurrency = inner.concurrency.follow
    (.between record.status closed.status) (slotInfoFor closed)

/-- The end of a call about a run, with the state of the run it answers with.  `parks` says
that it may park the run, `why` what is known of a run it ends. -/
inductive RunEnd (inner : Inner) (runId : TurnRunId) (parks : Prop) (why : RunRecord → Prop) :
    Option TurnRunState → Inner → Prop where
  | absent : RunEnd inner runId parks why none inner
  | restored {record : RunRecord} (found : inner.records.get runId = some record) :
      RunEnd inner runId parks why none
        ((inner.removeRecord runId).insertRecord record.runId record)
  | kept {after : Inner} {record changed : RunRecord}
      (written : Continued inner after runId record changed)
      (status : changed.status = record.status)
      (checkpoint : changed.checkpointId = record.checkpointId)
      (held : record.LeaseShape → holdsRunningSlot record.status = true ∧ changed.LeaseShape)
      (locks : after.activeLocks = inner.activeLocks ∨
        ∃ updatedAt, after.activeLocks = (inner.touchActiveLock changed updatedAt).activeLocks)
      (queue : after.queuedRuns = inner.queuedRuns)
      (slots : after.concurrency = inner.concurrency) :
      RunEnd inner runId parks why none after
  | parked {after : Inner} {record changed : RunRecord} (may : parks)
      (moved : Moved inner after runId record changed)
      (queue : after.queuedRuns = inner.queuedRuns) (blocked : changed.status.isBlocked = true)
      (checkpoint : changed.checkpointId.isSome = true) :
      RunEnd inner runId parks why (some changed.state) after
  | asked {after : Inner} {record changed : RunRecord}
      (moved : Moved inner after runId record changed)
      (queue : after.queuedRuns = inner.queuedRuns)
      (status : changed.status = .cancelRequested)
      (checkpoint : changed.checkpointId = record.checkpointId) :
      RunEnd inner runId parks why none after
  | queued {after : Inner} {record changed : RunRecord}
      (moved : Moved inner after runId record changed)
      (queue : record.runId = runId → after.queuedRuns = inner.queuedRuns ++ [changed.runId])
      (status : changed.status = .queued)
      (checkpoint : changed.checkpointId = record.checkpointId) :
      RunEnd inner runId parks why none after
  | closed {after : Inner} {record changed : RunRecord}
      (ends : Closed inner after runId record changed) (cause : why record) :
      RunEnd inner runId parks why (some changed.state) after.pruneTerminalRecords
  | pruned {answer : Option TurnRunState} {after : Inner}
      (ends : RunEnd inner runId parks why answer after) :
      RunEnd inner runId parks why answer after.pruneTerminalRecords

variable {inner : Inner} {runId : TurnRunId} {record changed : RunRecord} {status : TurnStatus}
  {cursor : EventCursor} {now : TurnTimestamp} {parks : Prop} {why : RunRecord → Prop}

/-! ## Parking and ending -/

theorem concurrency_applyStatusTransition (inner : Inner) (transition : StatusTransition)
    (record : RunRecord) : (inner.applyStatusTransition transition record).concurrency =
      inner.concurrency.follow transition (slotInfoFor record) := by
  cases transition <;> rfl

theorem not_entered {source target : TurnStatus} (idle : holdsRunningSlot target = false) :
    between source target ≠ .enteredRunning := by
  unfold between
  rw [idle]
  cases holdsRunningSlot source <;> simp

theorem idle_of_isTerminal (ended : status.isTerminal = true) :
    holdsRunningSlot status = false := by
  cases holds : holdsRunningSlot status with
  | false => rfl
  | true => rw [isTerminal_of_holdsRunningSlot holds] at ended; cases ended

/-- The usage a loop reports is written whatever becomes of the run. -/
theorem parkRun_moved (found : inner.records.get runId = some record)
    (running : record.status = .running) (usage : Option LoopModelUsage) {reason : BlockedReason}
    {checkpointId : TurnCheckpointId} {blockedActivityId : Option CapabilityActivityId}
    {stateRef : LoopCheckpointStateRef} :
    let parked := (record.withUsage usage).parked reason checkpointId blockedActivityId cursor
    Moved inner (((inner.removeRecord runId).parkRun (record.withUsage usage) parked checkpointId
      stateRef reason.gateRef now).insertRecord parked.runId parked) runId record parked where
  found
  wasLive := by rw [running]; rfl
  idle := by rw [running]; simp
  live := reason.status_parked.1
  lease _ := .of_absent reason.status_parked.2 rfl rfl rfl
  locks := ⟨now, rfl⟩
  slots := concurrency_applyStatusTransition _ _ _
  left := not_entered reason.status_parked.2

variable {sanitizedReason detail : Option String} {kind : TurnEventKind}

theorem closeRun_closed (found : inner.records.get runId = some record)
    (wasLive : record.status.isTerminal = false) (closed : RunRecord)
    (own : closed.runId = record.runId) (same : record.SameRun closed)
    (ended : closed.status.isTerminal = true) (lease : record.LeaseShape → closed.LeaseShape) :
    Closed inner (((inner.removeRecord runId).closeRun record closed kind sanitizedReason detail
      now).insertRecord closed.runId closed) runId record closed where
  found
  own
  same
  wasLive
  ended
  lease
  locks := rfl
  queue := rfl
  admission := rfl
  slots := concurrency_applyStatusTransition _ _ _

theorem closeRun_end (found : inner.records.get runId = some record)
    (wasLive : record.status.isTerminal = false) (cause : why record)
    (usage : Option LoopModelUsage) (ended : status.isTerminal = true)
    {failure : Option SanitizedFailure} {checkpointId : Option TurnCheckpointId} :
    let closed := (record.withUsage usage).closed status failure checkpointId cursor
    RunEnd inner runId parks why (some closed.state)
      (((inner.removeRecord runId).closeRun (record.withUsage usage) closed kind sanitizedReason
        detail now).insertRecord closed.runId closed).pruneTerminalRecords := by
  intro closed
  exact .closed (closeRun_closed found wasLive closed rfl {} ended
    fun _ => .of_absent (idle_of_isTerminal ended) rfl rfl rfl) cause

/-! ## Runner transitions -/

theorem running_of_ensureActiveLease (lease : record.LeaseShape) {claim : LeaseClaim}
    (accepted : ensureActiveLease record claim now = .ok ()) :
    holdsRunningSlot record.status = true := by
  rw [← lease.token]
  unfold ensureActiveLease at accepted
  split at accepted
  · cases accepted
  next matching =>
    rw [not_or, not_not, not_not] at matching
    simp [matching.2]

variable (inner now) (env : StoreEnv) (claim : LeaseClaim)

theorem heartbeat_ends :
    RunEnd inner claim.runId parks why none (inner.heartbeat env now claim).2 := by
  simp only [heartbeat, withLease]
  split
  · exact .absent
  rename_i record found
  iterate 2
    split
    · exact .restored found
  rename_i running
  have running : record.status = .running := not_not.mp running
  exact .kept { found, records := rfl } rfl rfl
    (fun lease => ⟨by rw [running]; rfl, lease.runner, lease.token,
      by simp [beatingRecord, running, holdsRunningSlot]⟩) (.inr ⟨now, rfl⟩) rfl rfl

theorem recordModelRouteSnapshot_ends (snapshot : LoopModelRouteSnapshot) :
    RunEnd inner claim.runId parks why none
      (inner.recordModelRouteSnapshot env now claim snapshot).2 := by
  simp only [recordModelRouteSnapshot, withLease]
  split
  · exact .absent
  rename_i record found
  iterate 2
    split
    · exact .restored found
  rename_i running
  split
  · exact .restored found
  split
  · split <;> exact .restored found
  · exact @RunEnd.kept _ _ _ _ _ record { record with resolvedModelRoute := some snapshot }
      { found } rfl rfl (fun lease => ⟨by rw [not_not.mp running]; rfl, lease.runner, lease.token,
        lease.expiry⟩) (.inr ⟨now, rfl⟩) rfl rfl

theorem blockRun_ends (request : BlockRunRequest) :
    RunEnd inner request.runId True why (inner.blockRun now request).1.toOption
      (inner.blockRun now request).2 := by
  simp only [blockRun, withLease]
  split
  · exact .absent
  rename_i found
  iterate 2
    split
    · exact .restored found
  rename_i running
  exact .parked trivial (parkRun_moved found (not_not.mp running) none) rfl
    (isBlocked_status _) rfl

theorem cancelCompletionTransition_ends : RunEnd inner claim.runId parks (fun _ => True)
      (inner.cancelCompletionTransition now claim).1.toOption
      (inner.cancelCompletionTransition now claim).2 := by
  simp only [cancelCompletionTransition, withLease]
  split
  · exact .absent
  rename_i found
  iterate 2
    split
    · exact .pruned (.restored found)
  rename_i requested
  exact closeRun_end found (by rw [not_not.mp requested]; rfl) trivial none rfl

theorem terminalTransition_ends (ended : status.isTerminal = true)
    (failure : Option SanitizedFailure) (kind : TurnEventKind) :
    RunEnd inner claim.runId parks (fun _ => True)
      (inner.terminalTransition now claim status failure kind).1.toOption
      (inner.terminalTransition now claim status failure kind).2 := by
  simp only [terminalTransition, withLease]
  split
  · exact .absent
  rename_i found
  iterate 2
    split
    · exact .pruned (.restored found)
  rename_i allowed
  rw [not_or] at allowed
  exact closeRun_end found (Bool.eq_false_iff.mpr allowed.2) trivial none ended

/-! ## Loop exits -/

section

variable {inner now claim} (found : inner.records.get runId = some record)
  (accepted : ensureActiveLease record claim now = .ok ()) (usage : Option LoopModelUsage)

include found accepted

theorem rejected_ends (error : TurnError) :
    let result := commitTransition (.rejected (record.withUsage usage) error)
      (inner.removeRecord runId)
    RunEnd inner runId parks why result.1.toOption result.2 :=
  .kept { found, records := rfl } rfl rfl
    (fun lease => ⟨running_of_ensureActiveLease lease accepted, lease.runner, lease.token,
      lease.expiry⟩) (.inl rfl) rfl rfl

theorem cancelClaimedRecord_ends :
    let exit := (inner.removeRecord runId).cancelClaimedRecord now (record.withUsage usage)
    let result := commitTransition exit.1 exit.2
    RunEnd inner runId parks (fun _ => True) result.1.toOption result.2 := by
  unfold cancelClaimedRecord
  split
  · exact rejected_ends found accepted usage _
  next requested =>
    have requested : record.status = .cancelRequested := not_not.mp requested
    exact closeRun_end found (by rw [requested]; rfl) trivial usage rfl

theorem failClaimedRecord_ends (failure : SanitizedFailure) :
    let exit := (inner.removeRecord runId).failClaimedRecord now (record.withUsage usage) failure
    let result := commitTransition exit.1 exit.2
    RunEnd inner runId parks (fun _ => True) result.1.toOption result.2 := by
  unfold failClaimedRecord
  split
  · exact rejected_ends found accepted usage _
  next running =>
    have running : record.status = .running := not_not.mp running
    exact closeRun_end found (by rw [running]; rfl) trivial usage rfl

theorem cancelOrFailClaimedRecord_ends (failure : SanitizedFailure) :
    let exit := (inner.removeRecord runId).cancelOrFailClaimedRecord now
      (record.withUsage usage) failure
    let result := commitTransition exit.1 exit.2
    RunEnd inner runId parks (fun _ => True) result.1.toOption result.2 := by
  unfold cancelOrFailClaimedRecord
  split
  · exact failClaimedRecord_ends found accepted usage failure
  · exact cancelClaimedRecord_ends found accepted usage
  · exact rejected_ends found accepted usage _

theorem applyLoopExitMapping_ends (mapping : LoopExitMapping) :
    let exit := (inner.removeRecord runId).applyLoopExitMapping now (record.withUsage usage)
      mapping
    let result := commitTransition exit.1 exit.2
    RunEnd inner runId True (fun _ => True) result.1.toOption result.2 := by
  have running : (record.withUsage usage).status = record.status := rfl
  unfold applyLoopExitMapping
  split
  · unfold completeClaimedRecord
    split
    · exact rejected_ends found accepted usage _
    next finished =>
      exact closeRun_end found (by rw [← running, not_not.mp finished]; rfl) trivial usage rfl
  · exact cancelOrFailClaimedRecord_ends found accepted usage _
  · unfold blockClaimedRecord
    split
    · exact rejected_ends found accepted usage _
    next parked =>
      exact .parked trivial (parkRun_moved found (running.symm.trans (not_not.mp parked)) usage)
        rfl (isBlocked_status _) rfl
  · exact failClaimedRecord_ends found accepted usage _
  · exact cancelOrFailClaimedRecord_ends found accepted usage _

end

theorem applyValidatedLoopExit_ends (mapping : LoopExitMapping)
    (modelUsage : Option LoopModelUsage) : RunEnd inner claim.runId True (fun _ => True)
      (inner.applyValidatedLoopExit now claim mapping modelUsage).1.toOption
      (inner.applyValidatedLoopExit now claim mapping modelUsage).2 := by
  simp only [applyValidatedLoopExit, withLease]
  split
  · exact .absent
  rename_i found
  split
  · exact .restored found
  next accepted => exact applyLoopExitMapping_ends found accepted modelUsage mapping

theorem recordRunnerFailure_ends (failure : SanitizedFailure) :
    RunEnd inner claim.runId parks (fun _ => True)
      (inner.recordRunnerFailure now claim failure).1.toOption
      (inner.recordRunnerFailure now claim failure).2 := by
  simp only [recordRunnerFailure, withLease]
  split
  · exact .absent
  rename_i record found
  split
  · exact .restored found
  next accepted => exact cancelOrFailClaimedRecord_ends found accepted none failure

/-- A relinquished run whose cancellation was requested ends. -/
theorem relinquishRun_ends : ∃ answer, RunEnd inner claim.runId parks
      (fun record => ensureActiveLease record claim now = .ok () ∧
        record.status = .cancelRequested) answer (inner.relinquishRun now claim).2 := by
  simp only [relinquishRun, withLease]
  split
  · exact ⟨_, .absent⟩
  rename_i found
  split
  · exact ⟨_, .restored found⟩
  rename_i accepted
  split
  next running =>
    refine ⟨_, .queued ⟨{ found, records := rfl }, by rw [running]; rfl, by rw [running]; simp,
      rfl, fun _ => .of_absent rfl rfl rfl rfl, ⟨now, rfl⟩, concurrency_applyStatusTransition _ _ _,
      not_entered rfl⟩ ?_ rfl rfl⟩
    exact fun keyed => keyed ▸ rfl
  next requested =>
    exact ⟨_, closeRun_end found (by rw [requested]; rfl) ⟨accepted, requested⟩ none rfl⟩
  · exact ⟨_, .restored found⟩

/-! ## Resuming and cancelling -/

theorem parked_of_resumableStatus {precondition : ResumeTurnPrecondition}
    (resumable : resumableStatus precondition status = true) :
    status.isTerminal = false ∧ holdsRunningSlot status = false ∧ status ≠ .queued := by
  revert resumable
  cases precondition <;> cases status <;> decide

theorem resumeTurnOnce_ends (request : ResumeTurnRequest) :
    RunEnd inner request.runId parks why none (inner.resumeTurnOnce now request).2 := by
  unfold resumeTurnOnce
  split
  · exact .absent
  rename_i found
  iterate 2
    split
    · exact .restored found
  rename_i resumable
  obtain ⟨live, idle, waits⟩ := parked_of_resumableStatus (Bool.not_eq_false _ ▸ resumable)
  iterate 2
    split
    · exact .restored found
  exact .queued ⟨{ found, records := rfl }, live, waits, rfl,
    fun lease => lease.carried idle.symm rfl rfl rfl, ⟨now, rfl⟩,
    concurrency_applyStatusTransition _ _ _, not_entered rfl⟩ (fun _ => rfl) rfl rfl

/-- A cancellation ends a run without a runner and asks one with a runner to stop. -/
theorem spec_of_cancelTarget {target : TurnStatus}
    (chosen : cancelTarget status = some (target, kind)) :
    holdsRunningSlot target = holdsRunningSlot status ∧
      (target.isTerminal = true ∧ (status = .queued ∨ status.isBlocked = true) ∨
        target = .cancelRequested ∧ holdsRunningSlot status = true) := by
  cases status <;> cases chosen <;> simp <;> decide

theorem requestCancelOnce_ends (request : CancelRunRequest) : ∃ answer,
    RunEnd inner request.runId parks
      (fun record => record.scope = request.scope ∧ record.actor = request.actor ∧
        (record.status = .queued ∨ record.status.isBlocked = true)) answer
      (inner.requestCancelOnce now request).2 := by
  unfold requestCancelOnce
  split
  · exact ⟨_, .absent⟩
  rename_i record found
  iterate 3
    split
    · exact ⟨_, .pruned (.restored found)⟩
  rename_i scope actor live
  have live := Bool.eq_false_iff.mpr live
  split
  · exact ⟨_, .pruned (.restored found)⟩
  rename_i target kind chosen
  obtain ⟨slot, ⟨ended, was⟩ | ⟨rfl, running⟩⟩ := spec_of_cancelTarget chosen
  · rw [if_pos ended]
    have closed := @closeRun_closed inner request.runId record now
      (some request.reason.category) none kind found live
      (cancelledRecord record target (inner.removeRecord request.runId).cursorAfter) rfl
      {} ended (fun lease => lease.carried slot rfl rfl rfl)
    exact ⟨_, .closed closed ⟨not_not.mp scope, not_not.mp actor, was⟩⟩
  · rw [if_neg (by decide)]
    refine ⟨_, .pruned (.asked ⟨{ found, records := rfl }, live, ?_, rfl,
      fun lease => lease.carried slot rfl rfl rfl, ⟨now, rfl⟩,
      concurrency_applyStatusTransition _ _ _, ?_⟩ rfl rfl rfl)⟩
    · intro queued
      rw [queued] at running
      cases running
    · change between record.status .cancelRequested ≠ _
      unfold between
      rw [running]
      simp [holdsRunningSlot]

end Inner

/-- The call is about one run that it does not open. -/
def StoreOp.AboutRun : StoreOp → Prop
  | .heartbeat _ _ | .recordModelRouteSnapshot _ _ _ | .blockRun _ _ | .completeRun _ _
  | .cancelRun _ _ | .failRun _ _ _ | .recordRunnerFailure _ _ _ | .relinquishRun _ _
  | .applyValidatedLoopExit _ _ _ _ => True
  | _ => False

open Turns.Inner in
theorem StoreOp.apply_ends (env : StoreEnv) (inner : Inner) {op : StoreOp} (about : op.AboutRun) :
    ∃ runId parks why answer, RunEnd inner runId parks why answer (op.apply env inner) := by
  cases op with
  | heartbeat now claim =>
    exact ⟨claim.runId, False, fun _ => False, none, heartbeat_ends inner now env claim⟩
  | recordModelRouteSnapshot now claim snapshot =>
    exact ⟨claim.runId, False, fun _ => False, none,
      recordModelRouteSnapshot_ends inner now env claim snapshot⟩
  | blockRun now request =>
    exact ⟨request.runId, True, fun _ => False, _, blockRun_ends inner now request⟩
  | completeRun now claim =>
    exact ⟨claim.runId, False, _, _, terminalTransition_ends inner now claim rfl none .completed⟩
  | cancelRun now claim =>
    exact ⟨claim.runId, False, _, _, cancelCompletionTransition_ends inner now claim⟩
  | failRun now claim failure =>
    exact ⟨claim.runId, False, _, _,
      terminalTransition_ends inner now claim rfl (some failure) .failed⟩
  | recordRunnerFailure now claim failure =>
    exact ⟨claim.runId, False, _, _, recordRunnerFailure_ends inner now claim failure⟩
  | relinquishRun now claim => exact ⟨claim.runId, False, _, relinquishRun_ends inner now claim⟩
  | applyValidatedLoopExit now claim mapping modelUsage =>
    exact ⟨claim.runId, True, _, _, applyValidatedLoopExit_ends inner now claim mapping modelUsage⟩
  | _ => cases about

end Ironclaw.Turns
