import Mathlib.Data.Finset.Basic
import Ironclaw.Turns.Status

/-!
# Records of the turn store

The rows the store keeps, the events it emits and the requests and responses of
its operations.  Fields that are only carried through are kept as opaque values.
-/

namespace Ironclaw.Turns

open HostApi RunProfileId

/-! ## Run profiles and run context -/

/-- The part of a resolved profile the store reads. -/
structure ResolvedRunProfile where
  profileId : RunProfileId
  profileVersion : RunProfileVersion
  allowSteering : Bool
  deriving DecidableEq

structure TurnRunProfile where
  id : RunProfileId
  version : RunProfileVersion
  admissionClass : TurnAdmissionClass
  allowSteering : Bool
  autoQueueFollowups : Bool
  resolved : ResolvedRunProfile
  deriving DecidableEq

def RunProfileId.defaultProfile : RunProfileId := ⟨"default"⟩

def RunProfileId.interactiveDefault : RunProfileId := ⟨"interactive_default"⟩

def compatibilityProfileId (resolved : ResolvedRunProfile) : RunProfileId :=
  if resolved.profileId = interactiveDefault then defaultProfile
  else resolved.profileId

def TurnRunProfile.fromResolved (resolved : ResolvedRunProfile) : TurnRunProfile where
  id := compatibilityProfileId resolved
  version := resolved.profileVersion
  admissionClass := TurnAdmissionClass.interactive
  allowSteering := resolved.allowSteering
  autoQueueFollowups := false
  resolved

inductive TurnOriginKind where
  | webUi
  | inbound
  | scheduledTrigger
  deriving DecidableEq

inductive TurnSurfaceType where
  | direct
  | channel
  deriving DecidableEq

inductive TurnOwner where
  | personal (user : UserId)
  | sharedAgent (agent : AgentId) (project : Option ProjectId)
  deriving DecidableEq

structure ProductTurnContext where
  origin : TurnOriginKind
  surfaceType : Option TurnSurfaceType
  adapter : Option String
  owner : TurnOwner
  deriving DecidableEq

structure LoopModelRouteSnapshot where
  providerId : String
  modelId : String
  configVersion : String
  authVersion : String
  deriving DecidableEq

structure LoopModelUsage where
  inputTokens : Nat
  outputTokens : Nat
  cacheReadInputTokens : Nat
  cacheCreationInputTokens : Nat
  deriving DecidableEq

inductive GateResumeDisposition where
  | denied
  deriving DecidableEq

/-! ## Runs -/

structure RunRecord where
  scope : TurnScope
  actor : TurnActor
  turnId : TurnId
  runId : TurnRunId
  status : TurnStatus
  profile : TurnRunProfile
  resolvedModelRoute : Option LoopModelRouteSnapshot
  modelUsage : Option LoopModelUsage
  acceptedMessageRef : AcceptedMessageRef
  sourceBindingRef : SourceBindingRef
  replyTargetBindingRef : ReplyTargetBindingRef
  checkpointId : Option TurnCheckpointId
  gateRef : Option GateRef
  blockedActivityId : Option CapabilityActivityId
  credentialRequirements : List RuntimeCredentialAuthRequirement
  failure : Option SanitizedFailure
  eventCursor : EventCursor
  runnerId : Option TurnRunnerId
  leaseToken : Option TurnLeaseToken
  leaseExpiresAt : Option TurnTimestamp
  lastHeartbeatAt : Option TurnTimestamp
  claimCount : Nat
  receivedAt : TurnTimestamp
  parentRunId : Option TurnRunId
  subagentDepth : Nat
  spawnTreeRootRunId : Option TurnRunId
  productContext : Option ProductTurnContext
  resumeDisposition : Option GateResumeDisposition
  deriving DecidableEq

structure TurnRunState where
  scope : TurnScope
  actor : Option TurnActor
  turnId : TurnId
  runId : TurnRunId
  status : TurnStatus
  acceptedMessageRef : AcceptedMessageRef
  sourceBindingRef : SourceBindingRef
  replyTargetBindingRef : ReplyTargetBindingRef
  resolvedRunProfileId : RunProfileId
  resolvedRunProfileVersion : RunProfileVersion
  resolvedModelRoute : Option LoopModelRouteSnapshot
  modelUsage : Option LoopModelUsage
  receivedAt : TurnTimestamp
  checkpointId : Option TurnCheckpointId
  gateRef : Option GateRef
  blockedActivityId : Option CapabilityActivityId
  credentialRequirements : List RuntimeCredentialAuthRequirement
  failure : Option SanitizedFailure
  eventCursor : EventCursor
  productContext : Option ProductTurnContext
  resumeDisposition : Option GateResumeDisposition

namespace RunRecord

def state (record : RunRecord) : TurnRunState where
  scope := record.scope
  actor := some record.actor
  turnId := record.turnId
  runId := record.runId
  status := record.status
  acceptedMessageRef := record.acceptedMessageRef
  sourceBindingRef := record.sourceBindingRef
  replyTargetBindingRef := record.replyTargetBindingRef
  resolvedRunProfileId := record.profile.id
  resolvedRunProfileVersion := record.profile.version
  resolvedModelRoute := record.resolvedModelRoute
  modelUsage := record.modelUsage
  receivedAt := record.receivedAt
  checkpointId := record.checkpointId
  gateRef := record.gateRef
  blockedActivityId := record.blockedActivityId
  credentialRequirements := record.credentialRequirements
  failure := record.failure
  eventCursor := record.eventCursor
  productContext := record.productContext
  resumeDisposition := record.resumeDisposition

/-- The root of the spawn tree the run belongs to; a run without a recorded root
is its own root. -/
def spawnTreeRoot (record : RunRecord) : TurnRunId := record.spawnTreeRootRunId.getD record.runId

end RunRecord

structure TurnRecord where
  turnId : TurnId
  scope : TurnScope
  actor : TurnActor
  acceptedMessageRef : AcceptedMessageRef
  sourceBindingRef : SourceBindingRef
  replyTargetBindingRef : ReplyTargetBindingRef
  createdAt : TurnTimestamp

/-! ## Active locks -/

/-- A `u64` lock counter. -/
structure TurnLockVersion where
  value : Nat
  bounded : value ≤ u64Max

namespace TurnLockVersion

def first : TurnLockVersion := ⟨1, by decide⟩

def incremented (version : TurnLockVersion) : TurnLockVersion :=
  ⟨saturatingAdd version.value 1, saturatingAdd_le _ _⟩

end TurnLockVersion

/-- The key of the active-lock table: the whole scope, its owner included. -/
structure TurnActiveLockKey where
  scope : TurnScope
  deriving DecidableEq

structure TurnActiveLockRecord where
  key : TurnActiveLockKey
  runId : TurnRunId
  status : TurnStatus
  lockVersion : TurnLockVersion
  acquiredAt : TurnTimestamp
  updatedAt : TurnTimestamp

/-! ## Checkpoints -/

inductive LoopCheckpointKind where
  | beforeModel
  | beforeSideEffect
  | beforeBlock
  | final
  deriving DecidableEq

/-- The kinds a failed run can be retried from. -/
def LoopCheckpointKind.resumable : LoopCheckpointKind → Bool
  | .beforeModel | .beforeBlock => true
  | .beforeSideEffect | .final => false

structure LoopCheckpointStateRef where
  value : String
  deriving DecidableEq

structure LoopCheckpointRecord where
  checkpointId : TurnCheckpointId
  scope : TurnScope
  turnId : TurnId
  runId : TurnRunId
  stateRef : LoopCheckpointStateRef
  schemaId : String
  schemaVersion : RunProfileVersion
  kind : LoopCheckpointKind
  gateRef : Option GateRef
  createdAt : TurnTimestamp

structure TurnCheckpointRecord where
  checkpointId : TurnCheckpointId
  runId : TurnRunId
  scope : Option TurnScope
  sequence : Nat
  status : TurnStatus
  gateRef : GateRef
  kind : LoopCheckpointKind
  stateRef : LoopCheckpointStateRef
  createdAt : TurnTimestamp

/-! ## Spawn trees -/

structure SpawnTreeReservationKey where
  tenantId : TenantId
  agentId : Option AgentId
  projectId : Option ProjectId
  rootRunId : TurnRunId
  deriving DecidableEq

variable (scope : TurnScope)

def SpawnTreeReservationKey.new (rootRunId : TurnRunId) : SpawnTreeReservationKey :=
  ⟨scope.tenantId, scope.agentId, scope.projectId, rootRunId⟩

/-- The value of the reservation table; `default` is an empty tree. -/
structure TreeReservationState where
  count : Nat := 0
  releasedChildren : Finset TurnRunId := ∅
  deriving DecidableEq

structure SpawnTreeReservation where
  scope : TurnScope
  rootRunId : TurnRunId
  descendantCount : Nat
  releasedChildren : Finset TurnRunId

/-! ## Admission -/

inductive TurnAdmissionBucketScope where
  | tenant (tenantId : TenantId)
  | actorUser (tenantId : TenantId) (userId : UserId)
  | project (tenantId : TenantId) (projectId : Option ProjectId)
  | agent (tenantId : TenantId) (agentId : Option AgentId)
  deriving DecidableEq

structure TurnAdmissionBucket where
  axisKind : TurnAdmissionAxisKind
  bucketKind : TurnAdmissionBucketKind
  admissionClass : Option TurnAdmissionClass
  scope : TurnAdmissionBucketScope
  deriving DecidableEq

structure TurnAdmissionLimit where
  maxActive : Option Nat
  retryAfterMs : Option Nat

structure TurnAdmissionReservationRecord where
  runId : TurnRunId
  admissionClass : TurnAdmissionClass
  buckets : List TurnAdmissionBucket
  released : Bool

/-- `admission_buckets`: a total and a class bucket on each of the four axes. -/
def admissionBuckets (actor : TurnActor)
    (admissionClass : TurnAdmissionClass) : List TurnAdmissionBucket :=
  let totalAndClass (axisKind : TurnAdmissionAxisKind) (bucketScope : TurnAdmissionBucketScope) :
      List TurnAdmissionBucket :=
    [⟨axisKind, .total, none, bucketScope⟩,
      ⟨axisKind, .admissionClass, some admissionClass, bucketScope⟩]
  totalAndClass .tenant (.tenant scope.tenantId) ++
    totalAndClass .actorUser (.actorUser scope.tenantId actor.userId) ++
    totalAndClass .project (.project scope.tenantId scope.projectId) ++
    totalAndClass .agent (.agent scope.tenantId scope.agentId)

/-! ## Lifecycle events -/

inductive TurnEventKind where
  | submitted
  | resumed
  | runnerClaimed
  | runnerHeartbeat
  | recoveryRequired
  | blocked
  | cancelRequested
  | cancelled
  | completed
  | failed
  deriving DecidableEq

inductive TurnBlockedGateKind where
  | approval
  | auth
  | resource
  | awaitDependentRun
  | externalTool
  deriving DecidableEq

def TurnBlockedGateKind.fromStatus : TurnStatus → Option TurnBlockedGateKind
  | .blockedApproval => some .approval
  | .blockedAuth => some .auth
  | .blockedResource => some .resource
  | .blockedDependentRun => some .awaitDependentRun
  | .blockedExternalTool => some .externalTool
  | _ => none

structure TurnBlockedGateMetadata where
  gateRef : GateRef
  gateKind : TurnBlockedGateKind
  activityId : Option CapabilityActivityId
  credentialRequirements : List RuntimeCredentialAuthRequirement
  deriving DecidableEq

structure TurnLifecycleEvent where
  cursor : EventCursor
  scope : TurnScope
  occurredAt : Option TurnTimestamp
  ownerUserId : Option UserId
  runId : TurnRunId
  status : TurnStatus
  kind : TurnEventKind
  blockedGate : Option TurnBlockedGateMetadata
  sanitizedReason : Option String
  retryable : Option Bool
  detail : Option String
  deriving DecidableEq

/-- `lifecycle_owner_user_id`: the explicit thread owner, else the actor. -/
def lifecycleOwnerUserId (fallbackActorUserId : Option UserId) : Option UserId :=
  scope.threadOwner.explicitOwnerUserId.orElse fun _ => fallbackActorUserId

/-- `failure_detail_for_event`: only a failed event carries the failure's detail. -/
def failureDetailForEvent (kind : TurnEventKind) (failure : Option SanitizedFailure) :
    Option String :=
  if kind = .failed then failure.bind SanitizedFailure.detail else none

end Ironclaw.Turns
