import Mathlib.Algebra.Group.Nat.Defs
import Ironclaw.HostApi.Scope

/-!
# Turn scopes, statuses and errors

The vocabulary of the turn store: who a run belongs to, where it is in its
lifecycle, why a call was refused.
-/

namespace Ironclaw.Turns

open HostApi

/-! ## Identifiers -/

structure TurnId where
  uuid : Nat
  deriving DecidableEq

structure TurnRunId where
  uuid : Nat
  deriving DecidableEq

structure CapabilityActivityId where
  uuid : Nat
  deriving DecidableEq

structure TurnCheckpointId where
  uuid : Nat
  deriving DecidableEq

structure TurnRunnerId where
  uuid : Nat
  deriving DecidableEq

structure TurnLeaseToken where
  uuid : Nat
  deriving DecidableEq

structure AcceptedMessageRef where
  value : String
  deriving DecidableEq

structure SourceBindingRef where
  value : String
  deriving DecidableEq

structure ReplyTargetBindingRef where
  value : String
  deriving DecidableEq

structure GateRef where
  value : String
  deriving DecidableEq

structure IdempotencyKey where
  value : String
  deriving DecidableEq

structure RunProfileId where
  value : String
  deriving DecidableEq

structure RunProfileVersion where
  value : Nat
  deriving DecidableEq

/-- Nanoseconds since the Unix epoch. -/
abbrev TurnTimestamp := Int

structure EventCursor where
  value : Nat
  deriving DecidableEq

/-! ## Machine integers -/

def u64Max : Nat := 2 ^ 64 - 1

def u32Max : Nat := 2 ^ 32 - 1

variable (left right : Nat)

def saturatingAdd : Nat := min (left + right) u64Max

def checkedAdd : Option Nat :=
  if left + right ≤ u64Max then some (left + right) else none

theorem le_saturatingAdd {left : Nat} (right : Nat) (bounded : left ≤ u64Max) :
    left ≤ saturatingAdd left right :=
  Nat.le_min.mpr ⟨Nat.le_add_right left right, bounded⟩

theorem saturatingAdd_le : saturatingAdd left right ≤ u64Max :=
  Nat.min_le_right _ _

/-! ## Scopes -/

inductive TurnThreadOwner where
  | actorFallback
  | explicitUser (ownerUserId : UserId)
  | ownerless
  deriving DecidableEq

namespace TurnThreadOwner

def explicitOwnerUserId : TurnThreadOwner → Option UserId
  | .explicitUser ownerUserId => some ownerUserId
  | .actorFallback => none
  | .ownerless => none

end TurnThreadOwner

structure TurnScope where
  tenantId : TenantId
  agentId : Option AgentId
  projectId : Option ProjectId
  threadId : ThreadId
  threadOwner : TurnThreadOwner
  deriving DecidableEq

structure TurnActor where
  userId : UserId
  deriving DecidableEq

namespace TurnScope

/-- Canonical thread identity: tenant, agent, project and thread, whoever owns
the thread. -/
def sameThread (scope other : TurnScope) : Bool :=
  scope.tenantId == other.tenantId && scope.agentId == other.agentId &&
    scope.projectId == other.projectId && scope.threadId == other.threadId

theorem sameThread_iff (scope other : TurnScope) : scope.sameThread other = true ↔
      scope.tenantId = other.tenantId ∧ scope.agentId = other.agentId ∧
        scope.projectId = other.projectId ∧ scope.threadId = other.threadId := by
  simp [sameThread, and_assoc]

theorem sameThread_symm {scope other : TurnScope} (same : scope.sameThread other = true) :
    other.sameThread scope = true := by
  rw [sameThread_iff] at same ⊢
  exact ⟨same.1.symm, same.2.1.symm, same.2.2.1.symm, same.2.2.2.symm⟩

theorem eq_of_sameThread {scope other : TurnScope} (same : scope.sameThread other = true)
    (owner : scope.threadOwner = other.threadOwner) : scope = other := by
  obtain ⟨_, _, _, _⟩ := (sameThread_iff scope other).mp same
  cases scope
  cases other
  simp_all

end TurnScope

/-- `same_scope_envelope`: tenant, agent and project agree. -/
def sameScopeEnvelope (candidate scope : TurnScope) : Bool :=
  candidate.tenantId == scope.tenantId && candidate.agentId == scope.agentId &&
    candidate.projectId == scope.projectId

/-! ## Statuses -/

inductive TurnStatus where
  | queued
  | running
  | blockedApproval
  | blockedAuth
  | blockedResource
  | blockedDependentRun
  | blockedExternalTool
  | cancelRequested
  | cancelled
  | completed
  | failed
  | recoveryRequired
  deriving DecidableEq

namespace TurnStatus

def isTerminal : TurnStatus → Bool
  | .cancelled | .completed | .failed | .recoveryRequired => true
  | _ => false

def isBlocked : TurnStatus → Bool
  | .blockedApproval | .blockedAuth | .blockedResource | .blockedDependentRun
  | .blockedExternalTool => true
  | _ => false

def keepsActiveLock (status : TurnStatus) : Bool := !status.isTerminal

end TurnStatus

/-- `holds_running_slot`: the statuses under which a runner owns the run. -/
def holdsRunningSlot : TurnStatus → Bool
  | .running | .cancelRequested => true
  | _ => false

theorem TurnStatus.isTerminal_of_isBlocked {status : TurnStatus}
    (blocked : status.isBlocked = true) : status.isTerminal = false := by
  cases status <;> first | rfl | cases blocked

theorem isTerminal_of_holdsRunningSlot {status : TurnStatus}
    (holds : holdsRunningSlot status = true) : status.isTerminal = false := by
  cases status <;> simp_all [holdsRunningSlot, TurnStatus.isTerminal]

inductive BlockedReason where
  | approval (gateRef : GateRef)
  | auth (gateRef : GateRef) (credentialRequirements : List RuntimeCredentialAuthRequirement)
  | resource (gateRef : GateRef)
  | awaitDependentRun (gateRef : GateRef)
  | externalTool (gateRef : GateRef)

namespace BlockedReason

def status : BlockedReason → TurnStatus
  | .approval _ => .blockedApproval
  | .auth _ _ => .blockedAuth
  | .resource _ => .blockedResource
  | .awaitDependentRun _ => .blockedDependentRun
  | .externalTool _ => .blockedExternalTool

def gateRef : BlockedReason → GateRef
  | .approval gateRef => gateRef
  | .auth gateRef _ => gateRef
  | .resource gateRef => gateRef
  | .awaitDependentRun gateRef => gateRef
  | .externalTool gateRef => gateRef

def credentialRequirements : BlockedReason → List RuntimeCredentialAuthRequirement
  | .auth _ credentialRequirements => credentialRequirements
  | _ => []

theorem status_parked (reason : BlockedReason) :
    reason.status.isTerminal = false ∧ holdsRunningSlot reason.status = false := by
  cases reason <;> exact ⟨rfl, rfl⟩

theorem isBlocked_status (reason : BlockedReason) : reason.status.isBlocked = true := by
  cases reason <;> rfl

end BlockedReason

/-! ## Failures and errors -/

structure SanitizedFailure where
  category : String
  detail : Option String
  deriving DecidableEq

def SanitizedFailure.fromTrustedStatic (category : String) : SanitizedFailure := ⟨category, none⟩

inductive SanitizedCancelReason where
  | userRequested
  | superseded
  | timeout
  | operatorRequested
  | policy

def SanitizedCancelReason.category : SanitizedCancelReason → String
  | .userRequested => "user_requested"
  | .superseded => "superseded"
  | .timeout => "timeout"
  | .operatorRequested => "operator_requested"
  | .policy => "policy"

structure TurnAdmissionClass where
  value : String
  deriving DecidableEq

def TurnAdmissionClass.interactive : TurnAdmissionClass := ⟨"interactive"⟩

inductive TurnAdmissionAxisKind where
  | tenant
  | actorUser
  | project
  | agent
  deriving DecidableEq

inductive TurnAdmissionBucketKind where
  | total
  | admissionClass
  deriving DecidableEq

structure TurnAdmissionCapacityDenial where
  axisKind : TurnAdmissionAxisKind
  bucketKind : TurnAdmissionBucketKind
  admissionClass : Option TurnAdmissionClass
  limit : Nat
  activeCount : Nat
  retryAfterMs : Option Nat

inductive AdmissionRejectionReason where
  | tenantLimit
  | profileRejected
  | policy
  | unauthorized
  | unavailable

structure AdmissionRejection where
  reason : AdmissionRejectionReason
  retryAfterMs : Option Nat
  capacityDenial : Option TurnAdmissionCapacityDenial

namespace AdmissionRejection

def new (reason : AdmissionRejectionReason) : AdmissionRejection := ⟨reason, none, none⟩

def withCapacityDenial (rejection : AdmissionRejection) (denial : TurnAdmissionCapacityDenial) :
    AdmissionRejection :=
  { rejection with retryAfterMs := denial.retryAfterMs, capacityDenial := some denial }

end AdmissionRejection

structure ThreadBusy where
  activeRunId : TurnRunId
  status : TurnStatus
  eventCursor : EventCursor

inductive TurnCapacityResource where
  | spawnTreeDescendants
  | submitTurn
  | replayed

inductive TurnErrorCategory where
  | threadBusy
  | admissionRejected
  | scopeNotFound
  | unauthorized
  | invalidRequest
  | unavailable
  | conflict
  | capacityExceeded

inductive TurnError where
  | threadBusy (busy : ThreadBusy)
  | admissionRejected (rejection : AdmissionRejection)
  | scopeNotFound
  | unauthorized
  | invalidRequest (reason : String)
  | unavailable (reason : String)
  | conflict (reason : String)
  | capacityExceeded (resource : TurnCapacityResource) (cap : Nat)
  | runNotRetryable (runId : TurnRunId)
  | invalidTransition (source target : TurnStatus)
  | leaseMismatch
  | invalidRunOriginAdapter

namespace TurnError

def category : TurnError → TurnErrorCategory
  | .threadBusy _ => .threadBusy
  | .admissionRejected rejection =>
    match rejection.reason with
    | .tenantLimit => .admissionRejected
    | .profileRejected => .invalidRequest
    | .policy | .unauthorized => .unauthorized
    | .unavailable => .unavailable
  | .scopeNotFound => .scopeNotFound
  | .unauthorized => .unauthorized
  | .invalidRequest _ => .invalidRequest
  | .unavailable _ => .unavailable
  | .conflict _ | .runNotRetryable _ | .invalidTransition _ _ | .leaseMismatch => .conflict
  | .capacityExceeded _ _ => .capacityExceeded
  | .invalidRunOriginAdapter => .invalidRequest

def adapterStatusCode (error : TurnError) : Nat :=
  match error.category with
  | .threadBusy | .conflict => 409
  | .admissionRejected => 429
  | .capacityExceeded => 429
  | .scopeNotFound => 404
  | .unauthorized => 403
  | .invalidRequest => 400
  | .unavailable => 503

end TurnError

end Ironclaw.Turns
