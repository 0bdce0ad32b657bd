import Ironclaw.Turns.Records

/-!
# Requests, responses and replay records

What callers pass to the turn store, what they get back, and the persisted rows
from which a repeated call is answered.
-/

namespace Ironclaw.Turns

/-! ## Store requests -/

structure SubmitTurnRequest where
  scope : TurnScope
  actor : TurnActor
  acceptedMessageRef : AcceptedMessageRef
  sourceBindingRef : SourceBindingRef
  replyTargetBindingRef : ReplyTargetBindingRef
  requestedRunProfile : Option String
  requestedModel : Option String
  idempotencyKey : IdempotencyKey
  receivedAt : TurnTimestamp
  requestedRunId : Option TurnRunId
  parentRunId : Option TurnRunId
  subagentDepth : Nat
  spawnTreeRootRunId : Option TurnRunId
  productContext : Option ProductTurnContext

structure SubmitChildRunRequest where
  parentScope : TurnScope
  parentRunId : TurnRunId
  childScope : TurnScope
  actor : TurnActor
  acceptedMessageRef : AcceptedMessageRef
  sourceBindingRef : SourceBindingRef
  replyTargetBindingRef : ReplyTargetBindingRef
  requestedRunProfile : Option String
  idempotencyKey : IdempotencyKey
  receivedAt : TurnTimestamp
  requestedRunId : Option TurnRunId
  spawnTreeDescendantCap : Nat

inductive ResumeTurnPrecondition where
  | anyBlockedGate
  | blockedApprovalGate
  | blockedAuthGate
  | blockedResourceGate
  | blockedDependentRunGate
  | blockedExternalToolGate

def ResumeTurnPrecondition.requiredStatus : ResumeTurnPrecondition → Option TurnStatus
  | .anyBlockedGate => none
  | .blockedApprovalGate => some .blockedApproval
  | .blockedAuthGate => some .blockedAuth
  | .blockedResourceGate => some .blockedResource
  | .blockedDependentRunGate => some .blockedDependentRun
  | .blockedExternalToolGate => some .blockedExternalTool

structure ResumeTurnRequest where
  scope : TurnScope
  actor : TurnActor
  runId : TurnRunId
  gateResolutionRef : GateRef
  sourceBindingRef : SourceBindingRef
  replyTargetBindingRef : ReplyTargetBindingRef
  idempotencyKey : IdempotencyKey
  precondition : ResumeTurnPrecondition
  resumeDisposition : Option GateResumeDisposition

structure RetryTurnRequest where
  scope : TurnScope
  actor : TurnActor
  runId : TurnRunId
  sourceBindingRef : SourceBindingRef
  replyTargetBindingRef : ReplyTargetBindingRef
  idempotencyKey : IdempotencyKey

structure CancelRunRequest where
  scope : TurnScope
  actor : TurnActor
  runId : TurnRunId
  reason : SanitizedCancelReason
  idempotencyKey : IdempotencyKey

structure PutLoopCheckpointRequest where
  scope : TurnScope
  turnId : TurnId
  runId : TurnRunId
  stateRef : LoopCheckpointStateRef
  schemaId : String
  schemaVersion : RunProfileVersion
  kind : LoopCheckpointKind
  gateRef : Option GateRef

/-! ## Transition-port requests -/

structure ClaimRunRequest where
  runnerId : TurnRunnerId
  leaseToken : TurnLeaseToken
  scopeFilter : Option TurnScope

structure ClaimRunsRequest where
  runnerId : TurnRunnerId
  scopeFilter : Option TurnScope
  maxRuns : Nat

structure RecoverExpiredLeasesRequest where
  now : TurnTimestamp
  scopeFilter : Option TurnScope

/-- The run, the runner and the token every leased call presents. -/
structure LeaseClaim where
  runId : TurnRunId
  runnerId : TurnRunnerId
  leaseToken : TurnLeaseToken

structure BlockRunRequest extends LeaseClaim where
  checkpointId : TurnCheckpointId
  stateRef : LoopCheckpointStateRef
  reason : BlockedReason

inductive TurnRunnerOutcome where
  | completed
  | cancelled
  | blocked (checkpointId : TurnCheckpointId) (stateRef : LoopCheckpointStateRef)
      (reason : BlockedReason) (blockedActivityId : Option CapabilityActivityId)
  | failed (failure : SanitizedFailure)

inductive LoopExitMapping where
  | runnerOutcome (outcome : TurnRunnerOutcome)
  | recoveryRequired (failure : SanitizedFailure)

/-! ## Responses -/

structure SubmitTurnResponse where
  turnId : TurnId
  runId : TurnRunId
  status : TurnStatus
  resolvedRunProfileId : RunProfileId
  resolvedRunProfileVersion : RunProfileVersion
  eventCursor : EventCursor
  acceptedMessageRef : AcceptedMessageRef
  replyTargetBindingRef : ReplyTargetBindingRef

structure ResumeTurnResponse where
  runId : TurnRunId
  status : TurnStatus
  eventCursor : EventCursor

structure RetryTurnResponse where
  runId : TurnRunId
  status : TurnStatus
  eventCursor : EventCursor

structure CancelRunResponse where
  runId : TurnRunId
  status : TurnStatus
  eventCursor : EventCursor
  alreadyTerminal : Bool
  actor : Option TurnActor

structure ClaimedTurnRun where
  state : TurnRunState
  resolvedRunProfile : ResolvedRunProfile
  runnerId : TurnRunnerId
  leaseToken : TurnLeaseToken

/-! ## Idempotency -/

structure SubmitIdempotencyKey where
  scope : TurnScope
  key : IdempotencyKey
  deriving DecidableEq

structure RunIdempotencyKey where
  scope : TurnScope
  runId : TurnRunId
  key : IdempotencyKey
  deriving DecidableEq

inductive TurnIdempotencyOperationKind where
  | submit
  | resume
  | retry
  | cancel
  deriving DecidableEq

structure PersistedIdempotencyKey where
  scope : TurnScope
  operation : TurnIdempotencyOperationKind
  runId : Option TurnRunId
  key : IdempotencyKey
  deriving DecidableEq

inductive TurnIdempotencyOutcomeKind where
  | accepted
  | threadBusy
  | admissionRejected
  | resumed
  | retried
  | cancelRecorded
  | scopeNotFound
  | unauthorized
  | invalidRequest
  | unavailable
  | conflict
  | capacityExceeded

def TurnIdempotencyOutcomeKind.fromError : TurnError → TurnIdempotencyOutcomeKind
  | .threadBusy _ => .threadBusy
  | .admissionRejected _ => .admissionRejected
  | .scopeNotFound => .scopeNotFound
  | .unauthorized => .unauthorized
  | .invalidRequest _ => .invalidRequest
  | .unavailable _ => .unavailable
  | .capacityExceeded _ _ => .capacityExceeded
  | .conflict _ | .runNotRetryable _ | .invalidTransition _ _ | .leaseMismatch => .conflict
  | .invalidRunOriginAdapter => .invalidRequest

structure TurnIdempotencyErrorReplay where
  category : TurnErrorCategory
  adapterStatusCode : Nat
  capacityResource : Option TurnCapacityResource
  capacityCap : Option Nat

def TurnIdempotencyErrorReplay.fromError (error : TurnError) : TurnIdempotencyErrorReplay where
  category := error.category
  adapterStatusCode := error.adapterStatusCode
  capacityResource := match error with
    | .capacityExceeded resource _ => some resource
    | _ => none
  capacityCap := match error with
    | .capacityExceeded _ cap => some cap
    | _ => none

inductive TurnIdempotencyReplay where
  | submitAccepted (response : SubmitTurnResponse)
  | submitThreadBusy (busy : ThreadBusy)
  | submitAdmissionRejected (rejection : AdmissionRejection)
  | resumeSucceeded (response : ResumeTurnResponse)
  | retrySucceeded (response : RetryTurnResponse)
  | retryThreadBusy (busy : ThreadBusy)
  | cancelRecorded (response : CancelRunResponse)
  | error (replay : TurnIdempotencyErrorReplay)

structure TurnIdempotencyRecord where
  scope : TurnScope
  operation : TurnIdempotencyOperationKind
  key : IdempotencyKey
  turnId : Option TurnId
  runId : Option TurnRunId
  outcome : TurnIdempotencyOutcomeKind
  replay : TurnIdempotencyReplay
  createdAt : TurnTimestamp
  expiresAt : Option TurnTimestamp

def persistedKeyForRecord (record : TurnIdempotencyRecord) : PersistedIdempotencyKey where
  scope := record.scope
  operation := record.operation
  runId := match record.operation with
    | .submit => none
    | .resume | .retry | .cancel => record.runId
  key := record.key

def persistedSubmitKey (key : SubmitIdempotencyKey) : PersistedIdempotencyKey :=
  ⟨key.scope, .submit, none, key.key⟩

def persistedRunKey (operation : TurnIdempotencyOperationKind) (key : RunIdempotencyKey) :
    PersistedIdempotencyKey :=
  ⟨key.scope, operation, some key.runId, key.key⟩

def errorReplay (error : TurnError) : TurnIdempotencyOutcomeKind × TurnIdempotencyReplay :=
  (.fromError error, .error (.fromError error))

def submitIdempotencyRecord (key : SubmitIdempotencyKey)
    (result : Except TurnError SubmitTurnResponse) (createdAt : TurnTimestamp) :
    TurnIdempotencyRecord :=
  let (turnId, runId, outcome, replay) := match result with
    | .ok response =>
      (some response.turnId, some response.runId, TurnIdempotencyOutcomeKind.accepted,
        TurnIdempotencyReplay.submitAccepted response)
    | .error (.threadBusy busy) =>
      (none, some busy.activeRunId, .threadBusy, .submitThreadBusy busy)
    | .error (.admissionRejected rejection) =>
      (none, none, .admissionRejected, .submitAdmissionRejected rejection)
    | .error error => (none, none, (errorReplay error).1, (errorReplay error).2)
  ⟨key.scope, .submit, key.key, turnId, runId, outcome, replay, createdAt, none⟩

/-- The common shape of the resume, retry and cancel rows. -/
def runIdempotencyRecord (operation : TurnIdempotencyOperationKind) (key : RunIdempotencyKey)
    (outcome : TurnIdempotencyOutcomeKind × TurnIdempotencyReplay) (createdAt : TurnTimestamp) :
    TurnIdempotencyRecord :=
  ⟨key.scope, operation, key.key, none, some key.runId, outcome.1, outcome.2, createdAt, none⟩

variable (key : RunIdempotencyKey)

def resumeIdempotencyRecord
    (result : Except TurnError ResumeTurnResponse) (createdAt : TurnTimestamp) :
    TurnIdempotencyRecord :=
  runIdempotencyRecord .resume key
    (match result with
      | .ok response => (.resumed, .resumeSucceeded response)
      | .error error => errorReplay error)
    createdAt

def retryIdempotencyRecord
    (result : Except TurnError RetryTurnResponse) (createdAt : TurnTimestamp) :
    TurnIdempotencyRecord :=
  runIdempotencyRecord .retry key
    (match result with
      | .ok response => (.retried, .retrySucceeded response)
      | .error (.threadBusy busy) => (.threadBusy, .retryThreadBusy busy)
      | .error error => errorReplay error)
    createdAt

def cancelIdempotencyRecord
    (result : Except TurnError CancelRunResponse) (createdAt : TurnTimestamp) :
    TurnIdempotencyRecord :=
  runIdempotencyRecord .cancel key
    (match result with
      | .ok response => (.cancelRecorded, .cancelRecorded response)
      | .error error => errorReplay error)
    createdAt

end Ironclaw.Turns
