import Ironclaw.Turns.Idempotency

/-!
# Store operations

Submitting, resuming, retrying and cancelling turns, and the capacity accounting
of spawn trees.  A submission takes the store's mutex several times; each critical
section is a definition of its own and the operation composes them.
-/

namespace Ironclaw.Turns

open Lib SpawnTreeReservationKey TurnRunProfile

inductive RunProfileResolutionError where
  | unauthorized
  | profileUnavailable
  | invalidRequest

def profileResolutionErrorToTurnError (error : RunProfileResolutionError) : TurnError :=
  .admissionRejected (.new (match error with
    | .unauthorized => .unauthorized
    | .profileUnavailable | .invalidRequest => .profileRejected))

/-- What one call of a store operation gets from outside: the clock, fresh
identifiers and the answers of the injected services. -/
structure CallContext where
  now : TurnTimestamp
  freshTurnId : TurnId
  freshRunId : TurnRunId
  freshCheckpointId : TurnCheckpointId
  /-- Answer of `TurnAdmissionPolicy::check_submit`. -/
  admission : Except AdmissionRejection Unit
  /-- Answer of `RunProfileResolver::resolve_run_profile`. -/
  profileResolution : Except RunProfileResolutionError ResolvedRunProfile
  /-- `TurnAdmissionLimitProvider::limit_for`. -/
  limitFor : TurnAdmissionBucket → Except Unit TurnAdmissionLimit

/-- `None` stands for a call that is still waiting for the in-flight call with its
idempotency key. -/
abbrev SubmitResult := Option (Except TurnError SubmitTurnResponse)

namespace Inner

/-! ## Idempotent submission -/

inductive SubmitClaim where
  | replay (result : Except TurnError SubmitTurnResponse)
  | claimed
  | waiting

/-- One round of `wait_for_or_claim_submit_idempotency`. -/
def claimSubmitIdempotency (inner : Inner) (key : SubmitIdempotencyKey) : SubmitClaim × Inner :=
  match inner.submitIdempotency.get key with
  | some result => (.replay result, inner)
  | none =>
    if key ∈ inner.submitIdempotencyInFlight then (.waiting, inner)
    else
      (.claimed, { inner with
          submitIdempotencyInFlight := insert key inner.submitIdempotencyInFlight })

def clearInFlight (inner : Inner) (key : SubmitIdempotencyKey) : Inner :=
  { inner with submitIdempotencyInFlight := inner.submitIdempotencyInFlight.erase key }

/-- A decided submission: remembered for replay, its in-flight slot freed. -/
def decideSubmit (inner : Inner) (key : SubmitIdempotencyKey)
    (result : Except TurnError SubmitTurnResponse) (createdAt : TurnTimestamp) :
    SubmitResult × Inner :=
  (some result, (inner.rememberSubmitIdempotency key result createdAt).clearInFlight key)

/-- A refused submission.  A busy thread is a passing state and is not remembered. -/
def refuseSubmit (inner : Inner) (key : SubmitIdempotencyKey) (error : TurnError)
    (createdAt : TurnTimestamp) : SubmitResult × Inner :=
  match error with
  | .threadBusy busy => (some (.error (.threadBusy busy)), inner.clearInFlight key)
  | error => inner.decideSubmit key (.error error) createdAt

/-- The check every later critical section starts with. -/
def unlessDecided (inner : Inner) (key : SubmitIdempotencyKey)
    (otherwise : SubmitResult × Inner) : SubmitResult × Inner :=
  match inner.submitIdempotency.get key with
  | some result => (some result, inner.clearInFlight key)
  | none => otherwise

/-- A queued run as a submission creates it. -/
def queuedRecord (runId : TurnRunId) (request : SubmitTurnRequest) (turnId : TurnId)
    (profile : TurnRunProfile) (route : Option LoopModelRouteSnapshot) (cursor : EventCursor) :
    RunRecord where
  scope := request.scope
  actor := request.actor
  turnId
  runId
  status := .queued
  profile
  resolvedModelRoute := route
  modelUsage := none
  acceptedMessageRef := request.acceptedMessageRef
  sourceBindingRef := request.sourceBindingRef
  replyTargetBindingRef := request.replyTargetBindingRef
  checkpointId := none
  gateRef := none
  blockedActivityId := none
  credentialRequirements := []
  failure := none
  eventCursor := cursor
  runnerId := none
  leaseToken := none
  leaseExpiresAt := none
  lastHeartbeatAt := none
  claimCount := 0
  receivedAt := request.receivedAt
  parentRunId := request.parentRunId
  subagentDepth := request.subagentDepth
  spawnTreeRootRunId := request.spawnTreeRootRunId
  productContext := request.productContext
  resumeDisposition := none

variable (record : RunRecord)

def acquiredLock (acquiredAt : TurnTimestamp) : TurnActiveLockRecord where
  key := ⟨record.scope⟩
  runId := record.runId
  status := .queued
  lockVersion := .first
  acquiredAt
  updatedAt := acquiredAt

/-- Install a new queued run: its lock, its place in the queue, its record, its event. -/
def openRun (inner : Inner) (record : RunRecord) (acquiredAt : TurnTimestamp)
    (kind : TurnEventKind) (now : TurnTimestamp) : Inner :=
  inner.insertActiveLock (acquiredLock record acquiredAt)
    |>.pushQueuedRun record.runId
    |>.insertRecord record.runId record
    |>.pushEvent record kind none none now

def turnRecordOf (request : SubmitTurnRequest) (turnId : TurnId) : TurnRecord where
  turnId
  scope := request.scope
  actor := request.actor
  acceptedMessageRef := request.acceptedMessageRef
  sourceBindingRef := request.sourceBindingRef
  replyTargetBindingRef := request.replyTargetBindingRef
  createdAt := request.receivedAt

/-- The tail of both submissions, once admission holds the run's reservation. -/
def acceptSubmit (reserved : Inner) (context : CallContext) (key : SubmitIdempotencyKey)
    (request : SubmitTurnRequest) (runId : TurnRunId) (profile : TurnRunProfile)
    (route : Option LoopModelRouteSnapshot) : SubmitResult × Inner :=
  let cursor := reserved.cursorAfter
  let record := queuedRecord runId request context.freshTurnId profile route cursor
  let response : SubmitTurnResponse :=
    { turnId := context.freshTurnId
      runId
      status := .queued
      resolvedRunProfileId := profile.id
      resolvedRunProfileVersion := profile.version
      eventCursor := cursor
      acceptedMessageRef := request.acceptedMessageRef
      replyTargetBindingRef := request.replyTargetBindingRef }
  reserved.nextCursor
    |>.insertTurn (turnRecordOf request context.freshTurnId)
    |>.openRun record request.receivedAt .submitted context.now
    |>.decideSubmit key (.ok response) record.receivedAt

/-! ## Submitting a turn -/

/-- The checks of the last critical section, before admission is reserved. -/
def submitCommitChecks (inner : Inner) (context : CallContext) (scope : TurnScope)
    (requestedRunId : Option TurnRunId) : Except TurnError TurnRunId :=
  match inner.threadBusy ⟨scope⟩ with
  | some busy => .error (.threadBusy busy)
  | none =>
    let runId := requestedRunId.getD context.freshRunId
    if inner.records.containsKey runId then
      .error (.conflict "requested_run_id already bound")
    else .ok runId

def submitCommit (env : StoreEnv) (context : CallContext) (key : SubmitIdempotencyKey)
    (request : SubmitTurnRequest) (inner : Inner) : SubmitResult × Inner :=
  inner.unlessDecided key <|
    match context.profileResolution with
    | .error error =>
      inner.refuseSubmit key (profileResolutionErrorToTurnError error) request.receivedAt
    | .ok resolved =>
      let profile := fromResolved resolved
      match inner.submitCommitChecks context request.scope request.requestedRunId with
      | .error error => inner.refuseSubmit key error request.receivedAt
      | .ok runId =>
        match inner.reserveAdmission runId profile.admissionClass request.scope request.actor
            context.limitFor with
        | .error rejection =>
          inner.refuseSubmit key (.admissionRejected rejection) request.receivedAt
        | .ok reserved =>
          reserved.acceptSubmit context key request runId profile
            (request.requestedModel.bind env.advisory)

variable (context : CallContext) (key : SubmitIdempotencyKey)

/-- The admission section both submissions share; `None` lets the call go on. -/
def submitAdmission (receivedAt : TurnTimestamp) (inner : Inner) : SubmitResult × Inner :=
  inner.unlessDecided key <|
    match context.admission with
    | .error rejection => inner.refuseSubmit key (.admissionRejected rejection) receivedAt
    | .ok () => (none, inner)

/-- The section that turns away a submission with lineage fields. -/
def refuseLineage (receivedAt : TurnTimestamp) (inner : Inner) : SubmitResult × Inner :=
  inner.unlessDecided key <|
    inner.refuseSubmit key
      (.invalidRequest "child runs must be submitted through submit_child_turn") receivedAt

/-- A submission that no other call interrupts. -/
def submitTurn (env : StoreEnv) (context : CallContext) (request : SubmitTurnRequest)
    (inner : Inner) : SubmitResult × Inner :=
  let key : SubmitIdempotencyKey := ⟨request.scope, request.idempotencyKey⟩
  match inner.claimSubmitIdempotency key with
  | (.replay result, inner) => (some result, inner)
  | (.waiting, inner) => (none, inner)
  | (.claimed, inner) =>
    if request.parentRunId.isSome ∨ request.subagentDepth ≠ 0 ∨
        request.spawnTreeRootRunId.isSome then
      inner.refuseLineage key request.receivedAt
    else
      match inner.submitAdmission context key request.receivedAt with
      | (some result, inner) => (some result, inner)
      | (none, inner) => inner.submitCommit env context key request

/-! ## Submitting a child turn -/

/-- The parent a child submission names, if the child may be attached to it. -/
def childParent (inner : Inner) (request : SubmitChildRunRequest) : Except TurnError RunRecord :=
  match (inner.records.get request.parentRunId).filter
      (fun record => record.scope = request.parentScope) with
  | none => .error .scopeNotFound
  | some parent =>
    if sameScopeEnvelope parent.scope request.childScope = false then .error .unauthorized
    else if parent.subagentDepth = u32Max then
      .error (.invalidRequest "subagent depth would overflow")
    else .ok parent

/-- The submission a child request stands for under its parent. -/
def childTemplate (request : SubmitChildRunRequest) (parent : RunRecord) : SubmitTurnRequest where
  scope := request.childScope
  actor := request.actor
  acceptedMessageRef := request.acceptedMessageRef
  sourceBindingRef := request.sourceBindingRef
  replyTargetBindingRef := request.replyTargetBindingRef
  requestedRunProfile := request.requestedRunProfile
  requestedModel := none
  idempotencyKey := request.idempotencyKey
  receivedAt := request.receivedAt
  requestedRunId := request.requestedRunId
  parentRunId := some parent.runId
  subagentDepth := parent.subagentDepth + 1
  spawnTreeRootRunId := some parent.spawnTreeRoot
  productContext := parent.productContext

/-- The run a spawn-tree call names must be present, in the caller's envelope, and
the root of its tree. -/
def treeRoot (inner : Inner) (scope : TurnScope) (rootRunId : TurnRunId) :
    Except TurnError RunRecord :=
  match inner.records.get rootRunId with
  | none => .error .scopeNotFound
  | some root =>
    if sameScopeEnvelope root.scope scope = false then .error .unauthorized
    else if root.spawnTreeRoot ≠ root.runId then
      .error (.invalidRequest "root_run_id must identify the spawn tree root")
    else .ok root

def capacityExceeded (cap : Nat) : TurnError := .capacityExceeded .spawnTreeDescendants cap

/-- The count after reserving `delta` descendants under a cap. -/
def nextTreeCount (count delta cap : Nat) : Except TurnError Nat :=
  match checkedAdd count delta with
  | none => .error (capacityExceeded cap)
  | some next => if cap < next then .error (capacityExceeded cap) else .ok next

def treeState (inner : Inner) (key : SpawnTreeReservationKey) : TreeReservationState :=
  (inner.treeReservations.get key).getD {}

def insertTreeState (inner : Inner) (key : SpawnTreeReservationKey)
    (state : TreeReservationState) : Inner :=
  { inner with treeReservations := inner.treeReservations.insert key state }

def removeTreeState (inner : Inner) (key : SpawnTreeReservationKey) : Inner :=
  { inner with treeReservations := inner.treeReservations.remove key }

/-- What the last critical section of a child submission has established before it
changes anything. -/
structure ChildPlan where
  parent : RunRecord
  runId : TurnRunId
  reservationKey : SpawnTreeReservationKey
  nextCount : Nat

/-- The checks of the last critical section of `submit_child_turn`, in order. -/
def childCommitChecks (inner : Inner) (context : CallContext) (request : SubmitChildRunRequest) :
    Except TurnError ChildPlan := do
  let parent ← inner.childParent request
  let _ ← inner.treeRoot request.childScope parent.spawnTreeRoot
  let runId ← inner.submitCommitChecks context request.childScope request.requestedRunId
  let key := new request.childScope parent.spawnTreeRoot
  let nextCount ← nextTreeCount (inner.treeState key).count 1 request.spawnTreeDescendantCap
  .ok ⟨parent, runId, key, nextCount⟩

/-- The rollback of a tree reservation whose admission was refused. -/
def rollbackTreeReservation (inner : Inner) (key : SpawnTreeReservationKey)
    (previous : TreeReservationState) : Inner :=
  if previous.count = 0 then inner.removeTreeState key else inner.insertTreeState key previous

def submitChildCommit (request : SubmitChildRunRequest) (inner : Inner) : SubmitResult × Inner :=
  inner.unlessDecided key <|
    match context.profileResolution with
    | .error error =>
      inner.refuseSubmit key (profileResolutionErrorToTurnError error) request.receivedAt
    | .ok resolved =>
      let profile := fromResolved resolved
      match inner.childCommitChecks context request with
      | .error error => inner.refuseSubmit key error request.receivedAt
      | .ok plan =>
        let previous := inner.treeState plan.reservationKey
        let counted := inner.insertTreeState plan.reservationKey
          { previous with count := plan.nextCount }
        match counted.reserveAdmission plan.runId profile.admissionClass request.childScope
            request.actor context.limitFor with
        | .error rejection =>
          (counted.rollbackTreeReservation plan.reservationKey previous).refuseSubmit key
            (.admissionRejected rejection) request.receivedAt
        | .ok reserved =>
          reserved.acceptSubmit context key (childTemplate request plan.parent) plan.runId
            profile none

def submitChildLineage (request : SubmitChildRunRequest) (inner : Inner) : SubmitResult × Inner :=
  inner.unlessDecided key <|
    match inner.childParent request with
    | .error error => inner.refuseSubmit key error request.receivedAt
    | .ok _ => (none, inner)

/-- A child submission that no other call interrupts. -/
def submitChildTurn (request : SubmitChildRunRequest) (inner : Inner) : SubmitResult × Inner :=
  let key : SubmitIdempotencyKey := ⟨request.childScope, request.idempotencyKey⟩
  match inner.claimSubmitIdempotency key with
  | (.replay result, inner) => (some result, inner)
  | (.waiting, inner) => (none, inner)
  | (.claimed, inner) =>
    match inner.submitChildLineage key request with
    | (some result, inner) => (some result, inner)
    | (none, inner) =>
      match inner.submitAdmission context key request.receivedAt with
      | (some result, inner) => (some result, inner)
      | (none, inner) => inner.submitChildCommit context key request

/-! ## Spawn-tree capacity -/

variable (scope : TurnScope) (rootRunId : TurnRunId)

def reserveTreeDescendants (delta cap : Nat)
    (inner : Inner) : Except TurnError SpawnTreeReservation × Inner :=
  if delta = 0 then (.error (.invalidRequest "reservation delta must be greater than zero"), inner)
  else match inner.treeRoot scope rootRunId with
    | .error error => (.error error, inner)
    | .ok root =>
      let key := new scope root.runId
      let state := inner.treeState key
      match nextTreeCount state.count delta cap with
      | .error error => (.error error, inner)
      | .ok next =>
        (.ok ⟨scope, root.runId, next, state.releasedChildren⟩,
          inner.insertTreeState key { state with count := next })

/-- What happens to an ended root when its tree becomes empty: it joins the queue of
prunable runs, or is dropped at once when that queue is full. -/
def retireEmptyRoot (inner : Inner) : Inner :=
  if (inner.records.get rootRunId).any (fun record => record.status.isTerminal) &&
      !inner.terminalRuns.contains rootRunId then
    if inner.limits.maxTerminalRecords ≤ inner.terminalRuns.length then
      { inner with
        records := inner.records.remove rootRunId
        admissionReservations := inner.admissionReservations.remove rootRunId }
    else
      pruneTerminalRecords { inner with terminalRuns := inner.terminalRuns ++ [rootRunId] }
  else inner

def releaseTreeDescendants (delta : Nat)
    (idempotencyKey : TurnRunId) (inner : Inner) : Except TurnError Unit × Inner :=
  match inner.treeRoot scope rootRunId with
  | .error error => (.error error, inner)
  | .ok root =>
    let key := new scope root.runId
    match inner.treeReservations.get key with
    | none => (.ok (), inner)
    | some state =>
      if idempotencyKey ∈ state.releasedChildren then (.ok (), inner)
      else if state.count < delta then
        -- The marker inserted for the child is taken back.
        (.error (.invalidRequest "release delta exceeds current reservation count"),
          inner.insertTreeState key { state with
              releasedChildren := (insert idempotencyKey state.releasedChildren).erase
                idempotencyKey })
      else if state.count - delta = 0 then
        (.ok (), (inner.removeTreeState key).retireEmptyRoot root.runId)
      else
        (.ok (), inner.insertTreeState key
            ⟨state.count - delta, insert idempotencyKey state.releasedChildren⟩)

/-- Unlike its siblings, this call accepts any run of the tree and a missing one. -/
def pruneReleasedChild (rootRunId childRunId : TurnRunId) (inner : Inner) :
    Except TurnError Unit × Inner :=
  match inner.records.get rootRunId with
  | none => (.ok (), inner)
  | some root =>
    if sameScopeEnvelope root.scope scope = false then (.error .unauthorized, inner)
    else
      let key := new scope root.spawnTreeRoot
      match inner.treeReservations.get key with
      | none => (.ok (), inner)
      | some state =>
        (.ok (), inner.insertTreeState key
            { state with releasedChildren := state.releasedChildren.erase childRunId })

/-! ## Resuming -/

def resumableStatus (precondition : ResumeTurnPrecondition) (status : TurnStatus) : Bool :=
  match precondition.requiredStatus with
  | some required => status = required
  | none =>
    match status with
    | .blockedApproval | .blockedAuth | .blockedResource => true
    | _ => false

def resumedRecord (request : ResumeTurnRequest) (record : RunRecord) (cursor : EventCursor) :
    RunRecord :=
  { record with
    status := .queued
    resumeDisposition := request.resumeDisposition
    gateRef := none
    credentialRequirements := []
    sourceBindingRef := request.sourceBindingRef
    replyTargetBindingRef := request.replyTargetBindingRef
    eventCursor := cursor }

variable (now : TurnTimestamp)

def resumeTurnOnce (request : ResumeTurnRequest) (inner : Inner) :
    Except TurnError ResumeTurnResponse × Inner :=
  match inner.records.get request.runId with
  | none => (.error .scopeNotFound, inner)
  | some record =>
    let taken := inner.removeRecord request.runId
    let refused (error : TurnError) : Except TurnError ResumeTurnResponse × Inner :=
      (.error error, taken.insertRecord record.runId record)
    if record.scope ≠ request.scope then refused .scopeNotFound
    else if resumableStatus request.precondition record.status = false then
      refused (.invalidTransition record.status .queued)
    else if record.actor ≠ request.actor then refused .unauthorized
    else if record.gateRef ≠ some request.gateResolutionRef then
      refused (.invalidRequest "gate resolution reference mismatch")
    else
      let resumed := resumedRecord request record taken.cursorAfter
      (.ok ⟨resumed.runId, resumed.status, resumed.eventCursor⟩,
        taken.applyStatusTransition (.between record.status .queued) resumed
          |>.nextCursor
          |>.updateActiveLock resumed now
          |>.pushQueuedRun resumed.runId
          |>.pushEvent resumed .resumed none none now
          |>.insertRecord resumed.runId resumed)

def resumeTurn (request : ResumeTurnRequest) (inner : Inner) :
    Except TurnError ResumeTurnResponse × Inner :=
  let key : RunIdempotencyKey := ⟨request.scope, request.runId, request.idempotencyKey⟩
  match inner.resumeIdempotency.get key with
  | some replayed => (replayed, inner)
  | none =>
    let result := inner.resumeTurnOnce now request
    (result.1, result.2.rememberResumeIdempotency key result.1 now)

/-! ## Retrying -/

variable (request : RetryTurnRequest)

/-- The failed run and checkpoint a retry starts from. -/
def retrySource (inner : Inner) : Except TurnError (RunRecord × LoopCheckpointRecord) :=
  match inner.records.get request.runId with
  | none => .error .scopeNotFound
  | some failed =>
    if failed.scope ≠ request.scope then .error .scopeNotFound
    else if failed.actor ≠ request.actor then .error .unauthorized
    else if failed.status ≠ .failed ∨ inner.isLatestRunForTurn failed = false then
      .error (.runNotRetryable request.runId)
    else
      match failed.checkpointId.bind (inner.retryableLoopCheckpoint failed) with
      | none => .error (.runNotRetryable request.runId)
      | some checkpoint => .ok (failed, checkpoint)

def retryRecord (failed : RunRecord) (runId : TurnRunId)
    (checkpointId : TurnCheckpointId) (cursor : EventCursor) (now : TurnTimestamp) : RunRecord :=
  { failed with
    runId
    status := .queued
    resolvedModelRoute := none
    modelUsage := none
    sourceBindingRef := request.sourceBindingRef
    replyTargetBindingRef := request.replyTargetBindingRef
    checkpointId := some checkpointId
    gateRef := none
    blockedActivityId := none
    credentialRequirements := []
    failure := none
    eventCursor := cursor
    runnerId := none
    leaseToken := none
    leaseExpiresAt := none
    lastHeartbeatAt := none
    claimCount := 0
    receivedAt := now
    resumeDisposition := none }

/-- `context.freshRunId` is the identifier the rejection loop ends with: one no
record has. -/
def retryTurnOnce (inner : Inner) : Except TurnError RetryTurnResponse × Inner :=
  match inner.retrySource request with
  | .error error => (.error error, inner)
  | .ok (failed, checkpoint) =>
    match inner.threadBusy ⟨failed.scope⟩ with
    | some busy => (.error (.threadBusy busy), inner)
    | none =>
      match inner.reserveAdmission context.freshRunId failed.profile.admissionClass
          failed.scope failed.actor context.limitFor with
      | .error rejection => (.error (.admissionRejected rejection), inner)
      | .ok reserved =>
        let linked := reserved.linkLoopCheckpointForRetry checkpoint context.freshRunId
          context.now context.freshCheckpointId
        let record := retryRecord request failed context.freshRunId
          context.freshCheckpointId linked.cursorAfter context.now
        (.ok ⟨context.freshRunId, .queued, record.eventCursor⟩,
          linked.nextCursor.openRun record context.now .resumed context.now)

def retryTurn (inner : Inner) : Except TurnError RetryTurnResponse × Inner :=
  let key : RunIdempotencyKey := ⟨request.scope, request.runId, request.idempotencyKey⟩
  match inner.retryIdempotency.get key with
  | some result => (result, inner)
  | none =>
    let result := inner.retryTurnOnce context request
    (result.1, result.2.rememberRetryIdempotency key result.1 context.now)

/-! ## Cancelling -/

/-- Where a cancellation request takes a live run; `none` is the arm that answers as
if the run had ended. -/
def cancelTarget : TurnStatus → Option (TurnStatus × TurnEventKind)
  | .queued | .blockedApproval | .blockedAuth | .blockedResource | .blockedDependentRun =>
    some (.cancelled, .cancelled)
  | .running | .cancelRequested => some (.cancelRequested, .cancelRequested)
  | _ => none

def cancelResponse (alreadyTerminal : Bool) : CancelRunResponse :=
  ⟨record.runId, record.status, record.eventCursor, alreadyTerminal, some record.actor⟩

/-- A run no runner owns is cancelled on the spot. -/
def cancelledRecord (status : TurnStatus) (cursor : EventCursor) : RunRecord :=
  { record with
    status
    failure := none
    eventCursor := cursor }

/-- A run a runner owns keeps its lease and is asked to stop. -/
def cancelRequestedRecord (status : TurnStatus) (cursor : EventCursor) : RunRecord :=
  { record with
    status
    eventCursor := cursor }

def requestCancelOnce (request : CancelRunRequest) (inner : Inner) :
    Except TurnError CancelRunResponse × Inner :=
  match inner.records.get request.runId with
  | none => (.error .scopeNotFound, inner)
  | some record =>
    let taken := inner.removeRecord request.runId
    let unchanged (result : Except TurnError CancelRunResponse) :
        Except TurnError CancelRunResponse × Inner :=
      (result, (taken.insertRecord record.runId record).pruneTerminalRecords)
    if record.scope ≠ request.scope then unchanged (.error .scopeNotFound)
    else if record.actor ≠ request.actor then unchanged (.error .unauthorized)
    else if record.status.isTerminal then unchanged (.ok (cancelResponse record true))
    else
      match cancelTarget record.status with
      | none => unchanged (.ok (cancelResponse record true))
      | some (nextStatus, eventKind) =>
        let accounted (changed : RunRecord) : Inner :=
          taken.applyStatusTransition (.between record.status nextStatus) changed
        if nextStatus.isTerminal then
          let cancelled := cancelledRecord record nextStatus taken.cursorAfter
          (.ok (cancelResponse cancelled false), accounted cancelled
              |>.releaseActiveLock cancelled
              |>.removeQueuedRun cancelled.runId
              |>.nextCursor
              |>.pushEvent cancelled eventKind (some request.reason.category) none now
              |>.markTerminal cancelled.runId
              |>.insertRecord cancelled.runId cancelled
              |>.pruneTerminalRecords)
        else
          let requested := cancelRequestedRecord record nextStatus taken.cursorAfter
          (.ok (cancelResponse requested false), accounted requested
              |>.updateActiveLock requested now
              |>.nextCursor
              |>.pushEvent requested eventKind (some request.reason.category) none now
              |>.insertRecord requested.runId requested
              |>.pruneTerminalRecords)

def requestCancel (request : CancelRunRequest) (inner : Inner) :
    Except TurnError CancelRunResponse × Inner :=
  let key : RunIdempotencyKey := ⟨request.scope, request.runId, request.idempotencyKey⟩
  match inner.cancelIdempotency.get key with
  | some result => (result, inner)
  | none =>
    let result := inner.requestCancelOnce now request
    (result.1, result.2.rememberCancelIdempotency key result.1 now)

/-! ## Loop checkpoints -/

def putLoopCheckpoint (checkpointId : TurnCheckpointId)
    (request : PutLoopCheckpointRequest) (inner : Inner) :
    Except TurnError LoopCheckpointRecord × Inner :=
  let record : LoopCheckpointRecord :=
    { checkpointId
      scope := request.scope
      turnId := request.turnId
      runId := request.runId
      stateRef := request.stateRef
      schemaId := request.schemaId
      schemaVersion := request.schemaVersion
      kind := request.kind
      gateRef := request.gateRef
      createdAt := now }
  (.ok record, { inner with loopCheckpoints := inner.loopCheckpoints.insert checkpointId record })

end Inner

end Ironclaw.Turns
