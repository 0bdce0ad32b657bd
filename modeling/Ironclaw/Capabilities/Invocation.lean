import Ironclaw.Authorization.Lease
import Ironclaw.RunState.Records

/-!
# Capability invocations

Requests to resume a blocked invocation, the errors they end with, and which change of
the run record an error asks for.
-/

namespace Ironclaw.Capabilities

open HostApi RunState Authorization

inductive DenyReason where
  | missingGrant
  | invalidPath
  | pathOutsideMount
  | unknownCapability
  | unknownSecret
  | networkDenied
  | budgetDenied
  | approvalDenied
  | policyDenied
  | resourceLimitExceeded
  | internalInvariantViolation

/-- An obligation of an allowed dispatch; only what the host itself tells apart is kept. -/
inductive Obligation where
  | auditBefore
  | auditAfter
  | redactOutput
  | reserveResources
  | useScopedMounts
  | injectSecretOnce (handle : SecretHandle)
  | injectCredentialAccountOnce (requirement : RuntimeCredentialAuthRequirement)
  | firstPartyCredentialStagedViaHostPort (capabilityId : CapabilityId)
  | applyNetworkPolicy
  | enforceResourceCeiling
  | enforceOutputLimit (bytes : Nat)

namespace Obligation

def credentialAuthRequirement : Obligation → Option RuntimeCredentialAuthRequirement
  | .injectCredentialAccountOnce requirement => some requirement
  | _ => none

def isPostDispatch : Obligation → Bool
  | .auditAfter | .redactOutput | .enforceResourceCeiling | .enforceOutputLimit _ => true
  | _ => false

end Obligation

def postDispatchObligations (obligations : List Obligation) : List Obligation :=
  obligations.filter Obligation.isPostDispatch

inductive Decision where
  | allow (obligations : List Obligation)
  | deny (reason : DenyReason)
  | requireApproval

inductive CapabilityObligationFailureKind where
  | audit
  | mount
  | network
  | output
  | resource
  | secret

inductive CapabilityObligationError where
  | unsupported (obligations : List Obligation)
  | authRequired (credentialRequirements : List RuntimeCredentialAuthRequirement)
  | failed (kind : CapabilityObligationFailureKind)

/-- The output of a dispatch, encoded. -/
structure CapabilityDispatchResult where
  output : JsonValue

/-- A dispatch failure: the request for authentication, or one of the others by its kind. -/
inductive DispatchError where
  | authRequired (capability : CapabilityId) (requiredSecrets : List SecretHandle)
      (credentialRequirements : List RuntimeCredentialAuthRequirement)
  | other (kind : String) (safeSummary : Option String)

inductive ResumeContextMismatchKind where
  | capabilityId
  | approvalRequestId
  | capabilityAndApprovalRequestId
  deriving DecidableEq

inductive CapabilityInvocationError where
  | unknownCapability (capability : CapabilityId)
  | authorizationDenied (capability : CapabilityId) (reason : DenyReason)
  | unsupportedObligations (capability : CapabilityId) (obligations : List Obligation)
  | obligationFailed (capability : CapabilityId) (kind : CapabilityObligationFailureKind)
  | authorizationRequiresApproval (capability : CapabilityId)
  | authorizationRequiresAuth (capability : CapabilityId) (requiredSecrets : List SecretHandle)
      (credentialRequirements : List RuntimeCredentialAuthRequirement)
  | invocationFingerprint (capability : CapabilityId) (source : HostApiError)
  | approvalRequestMismatch (capability : CapabilityId) (field : String)
  | approvalFingerprintMismatch (capability : CapabilityId)
  | approvalNotApproved (capability : CapabilityId) (status : ApprovalStatus)
  | approvalLeaseMissing (capability : CapabilityId)
  | resumeStoreMissing (capability : CapabilityId) (store : String)
  | resumeNotBlocked (capability : CapabilityId) (status : RunStatus)
  | resumeContextMismatch (capability : CapabilityId) (kind : ResumeContextMismatchKind)
  | lease (error : CapabilityLeaseError)
  | runState (error : RunStateError)
  | dispatch (kind : String) (safeSummary : Option String)

/-! ## Run-state transitions of an error -/

inductive CapabilityRunStateTransition where
  | fail (errorKind : String)
  | blockAuth (errorKind : String)

def CapabilityRunStateTransition.errorKind : CapabilityRunStateTransition → String
  | .fail errorKind | .blockAuth errorKind => errorKind

/-- A dispatch failure leaves the run record to the disposition policy. -/
def CapabilityInvocationError.runStateTransition :
    CapabilityInvocationError → Option CapabilityRunStateTransition
  | .unsupportedObligations _ _ => some (.fail "UnsupportedObligations")
  | .obligationFailed _ _ => some (.fail "ObligationFailed")
  | .authorizationRequiresAuth _ _ _ => some (.blockAuth "AuthRequired")
  | .dispatch _ _ => none
  | _ => some (.fail "Obligation")

def obligationInvocationErrorKind (error : CapabilityInvocationError) : String :=
  (error.runStateTransition.map CapabilityRunStateTransition.errorKind).getD "Dispatch"

def prepareObligationErrorToInvocation (capabilityId : CapabilityId) :
    CapabilityObligationError → CapabilityInvocationError
  | .unsupported obligations => .unsupportedObligations capabilityId obligations
  | .authRequired requirements => .authorizationRequiresAuth capabilityId [] requirements
  | .failed kind => .obligationFailed capabilityId kind

/-- After the dispatch a request for authentication is a failure. -/
def completionObligationErrorToInvocation (capabilityId : CapabilityId) :
    CapabilityObligationError → CapabilityInvocationError
  | .authRequired _ => .obligationFailed capabilityId .secret
  | other => prepareObligationErrorToInvocation capabilityId other

/-- A bare request for authentication takes its requirement from the one credential the
obligations declare. -/
def enrichDispatchErrorCredentialRequirements (error : DispatchError)
    (obligations : List Obligation) : DispatchError :=
  match error with
  | .authRequired capability [] [] =>
    match obligations.filterMap Obligation.credentialAuthRequirement with
    | [requirement] => .authRequired capability [] [requirement]
    | _ => error
  | _ => error

def DispatchError.toInvocation : DispatchError → CapabilityInvocationError
  | .authRequired capability secrets requirements =>
    .authorizationRequiresAuth capability secrets requirements
  | .other kind safeSummary => .dispatch kind safeSummary

/-! ## Requests -/

/-- `CapabilityResumeRequest` and `CapabilityAuthResumeRequest`; the approval request id of
the first is never missing. -/
inductive ResumeKind where
  | resume (approvalRequestId : ApprovalRequestId)
  | authResume (approvalRequestId : Option ApprovalRequestId)

structure ResumeRequest where
  kind : ResumeKind
  context : ExecutionContext
  capabilityId : CapabilityId
  estimate : ResourceEstimate
  input : JsonValue

/-- `validate_approval_request_matches_invocation` for a dispatch. -/
def validateApprovalRequestMatchesInvocation (approval : ApprovalRequest)
    (request : ResumeRequest) : Except CapabilityInvocationError Unit :=
  let mismatch := fun field => .error (.approvalRequestMismatch request.capabilityId field)
  if approval.action ≠ .dispatch request.capabilityId request.estimate then mismatch "action"
  else if approval.correlationId ≠ request.context.correlationId then mismatch "correlation_id"
  else if approval.requestedBy ≠ .extension request.context.extensionId then
    mismatch "requested_by"
  else .ok ()

def approvalNotApprovedErrorKind : ApprovalStatus → String
  | .pending => "ApprovalPending"
  | .approved => "ApprovalApproved"
  | .denied => "ApprovalDenied"
  | .expired => "ApprovalExpired"
  | .discarded => "ApprovalDiscarded"

/-- The kind for a mismatch of the capability, of the approval request, or of both. -/
def resumeContextMismatchKind (capabilityMismatch approvalRequestMismatch : Bool) :
    ResumeContextMismatchKind :=
  match capabilityMismatch, approvalRequestMismatch with
  | true, true => .capabilityAndApprovalRequestId
  | true, false => .capabilityId
  | false, _ => .approvalRequestId

/-- A claim that failed on one of these statuses lost to another resume. -/
def claimErrorMayBeConcurrentResume : CapabilityLeaseError → Bool
  | .inactiveLease _ .claimed | .inactiveLease _ .dispatching | .inactiveLease _ .consumed => true
  | _ => false

end Ironclaw.Capabilities
