import Ironclaw.HostApi.Mount

/-!
# Identifiers, execution contexts and approval requests

Identifiers are validated strings in the source; the stores only compare them.  A context
has the parts that resuming an invocation reads.  Estimates and inputs are only compared and
handed on, so they are kept in their encoded form.
-/

namespace Ironclaw.HostApi

structure TenantId where
  value : String
  deriving DecidableEq

structure UserId where
  value : String
  deriving DecidableEq

structure AgentId where
  value : String
  deriving DecidableEq

structure ProjectId where
  value : String
  deriving DecidableEq

structure ThreadId where
  value : String
  deriving DecidableEq

structure MissionId where
  value : String
  deriving DecidableEq

structure ExtensionId where
  value : String
  deriving DecidableEq

structure SystemServiceId where
  value : String
  deriving DecidableEq

structure CapabilityId where
  value : String
  deriving DecidableEq

structure InvocationId where
  uuid : Nat
  deriving DecidableEq

structure CorrelationId where
  uuid : Nat
  deriving DecidableEq

structure ApprovalRequestId where
  uuid : Nat
  deriving DecidableEq

structure CapabilityGrantId where
  uuid : Nat
  deriving DecidableEq

structure ResourceReservationId where
  uuid : Nat
  deriving DecidableEq

structure InvocationFingerprint where
  value : String
  deriving DecidableEq

structure SecretHandle where
  value : String
  deriving DecidableEq

/-- A credential the runtime asks the user for before it can go on. -/
structure RuntimeCredentialAuthRequirement where
  value : String
  deriving DecidableEq

structure ResourceScope where
  tenantId : TenantId
  userId : UserId
  agentId : Option AgentId
  projectId : Option ProjectId
  missionId : Option MissionId
  threadId : Option ThreadId
  invocationId : InvocationId
  deriving DecidableEq

inductive Principal where
  | tenant (id : TenantId)
  | user (id : UserId)
  | agent (id : AgentId)
  | project (id : ProjectId)
  | mission (id : MissionId)
  | thread (id : ThreadId)
  | extension (id : ExtensionId)
  | hostRuntime
  | system (id : SystemServiceId)
  deriving DecidableEq

structure ExecutionContext where
  invocationId : InvocationId
  correlationId : CorrelationId
  tenantId : TenantId
  userId : UserId
  authenticatedActorUserId : Option UserId
  agentId : Option AgentId
  projectId : Option ProjectId
  missionId : Option MissionId
  threadId : Option ThreadId
  extensionId : ExtensionId
  mounts : MountView
  resourceScope : ResourceScope

/-- The scope agrees with the context field by field, and the mounts are valid. -/
def ExecutionContext.validate (context : ExecutionContext) : Except HostApiError Unit :=
  let scope := context.resourceScope
  if scope.invocationId ≠ context.invocationId then
    .error (.invariantViolation
      "resource_scope.invocation_id must match execution context invocation_id")
  else if scope.tenantId ≠ context.tenantId then
    .error (.invariantViolation "resource_scope.tenant_id must match execution context tenant_id")
  else if scope.userId ≠ context.userId then
    .error (.invariantViolation "resource_scope.user_id must match execution context user_id")
  else if scope.agentId ≠ context.agentId then
    .error (.invariantViolation "resource_scope.agent_id must match execution context agent_id")
  else if scope.projectId ≠ context.projectId then
    .error (.invariantViolation "resource_scope.project_id must match execution context project_id")
  else if scope.missionId ≠ context.missionId then
    .error (.invariantViolation "resource_scope.mission_id must match execution context mission_id")
  else if scope.threadId ≠ context.threadId then
    .error (.invariantViolation "resource_scope.thread_id must match execution context thread_id")
  else context.mounts.validate

structure ResourceEstimate where
  encoded : String
  deriving DecidableEq

structure JsonValue where
  encoded : String

/-- What an approval is asked for; the actions that resuming never matches are one case. -/
inductive Action where
  | dispatch (capability : CapabilityId) (estimatedResources : ResourceEstimate)
  | spawnCapability (capability : CapabilityId) (estimatedResources : ResourceEstimate)
  | other
  deriving DecidableEq

structure ApprovalRequest where
  id : ApprovalRequestId
  correlationId : CorrelationId
  requestedBy : Principal
  action : Action
  invocationFingerprint : Option InvocationFingerprint

end Ironclaw.HostApi
