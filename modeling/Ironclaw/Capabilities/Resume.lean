import Ironclaw.Capabilities.Invocation
import Ironclaw.Lib.System

/-!
# Resuming a blocked invocation

`resume_json` and `auth_resume_json` as one machine: a call stands before its next
operation on a store, its next question to the authorizer or the obligation handler, or
its dispatch, and one step performs that operation and moves the call on.  Any number of
calls interleave over the run record and the leases of one invocation.  What the
surroundings answer (the clock, the authorizer, the obligation handler, the dispatcher,
a store that fails) comes with the step.
-/

namespace Ironclaw.Capabilities

open HostApi RunState Authorization Lib

/-! ## The leases of an invocation -/

/-- The leases stored under the scope of one invocation, each under its own id. -/
structure LeaseTable where
  leases : List CapabilityLease
  distinct : (leases.map (·.grantId)).Nodup

namespace LeaseTable

variable (table : LeaseTable)

def get (leaseId : CapabilityGrantId) : Option CapabilityLease :=
  table.leases.find? (·.grantId = leaseId)

/-- Overwrite the stored lease with the id of the new one. -/
def put (lease : CapabilityLease) : LeaseTable where
  leases := table.leases.map fun stored => if stored.grantId = lease.grantId then lease else stored
  distinct := by
    have same : (fun stored : CapabilityLease =>
        (if stored.grantId = lease.grantId then lease else stored).grantId) = (·.grantId) := by
      funext stored
      split
      next found => exact found.symm
      · rfl
    rw [List.map_map]
    change (table.leases.map fun stored => (if stored.grantId = lease.grantId then lease
      else stored).grantId).Nodup
    rw [same]
    exact table.distinct

def run (now : Timestamp) (op : LeaseOp) (leaseId : CapabilityGrantId) :
    Except CapabilityLeaseError LeaseTable :=
  match table.get leaseId with
  | none => .error (.unknownLease leaseId)
  | some lease => (op.mutate now lease).map table.put

/-- `matching_approval_lease`, over the leases the listing could read. -/
def matchingApprovalLease (now : Timestamp)
    (hidden : List CapabilityGrantId) (capabilityId : CapabilityId)
    (fingerprint : InvocationFingerprint) : Option CapabilityLease :=
  table.leases.find? fun lease =>
    lease.grantId ∉ hidden && lease.status = .active && !lease.isExpired now &&
      lease.maxInvocations ≠ some 0 && lease.capability = capabilityId &&
      lease.invocationFingerprint = some fingerprint

/-- `matching_claimed_approval_lease_for_auth_resume`. -/
def matchingClaimedApprovalLease (hidden : List CapabilityGrantId)
    (capabilityId : CapabilityId) (fingerprint : InvocationFingerprint) : Option CapabilityLease :=
  table.leases.find? fun lease =>
    lease.grantId ∉ hidden && lease.capability = capabilityId &&
      lease.invocationFingerprint = some fingerprint && lease.status = .claimed

end LeaseTable

/-! ## Calls -/

/-- The host's configuration and what stays fixed while the calls run. -/
structure CapabilityHost where
  hasRunState : Bool
  hasApprovalRequests : Bool
  hasCapabilityLeases : Bool
  hasObligationHandler : Bool
  registry : CapabilityId → Bool
  forDispatch : ResourceScope → CapabilityId → ResourceEstimate → JsonValue →
    Except HostApiError InvocationFingerprint
  approvals : ApprovalRequestId → Option ApprovalRecord

/-- The run record and the leases kept under the scope of the invocation. -/
structure ResumeStore where
  scope : ResourceScope
  run : Option RunRecord
  leases : LeaseTable

/-- What the surroundings answer to a step; a step reads what it asks for. -/
structure ResumeAnswer where
  now : Timestamp
  runStateFault : Option RunStateError
  leaseFault : Option CapabilityLeaseError
  hiddenLeases : List CapabilityGrantId
  decision : Decision
  prepared : Except CapabilityObligationError Unit
  dispatched : Except DispatchError CapabilityDispatchResult
  completed : Except CapabilityObligationError CapabilityDispatchResult

inductive ResumedLeaseState where
  | pendingClaim (grantId : CapabilityGrantId) (fingerprint : InvocationFingerprint)
  | alreadyClaimed (grantId : CapabilityGrantId)
  | noPriorLease

/-- The lease a refused authorization revokes. -/
def ResumedLeaseState.toRevoke : ResumedLeaseState → Option CapabilityGrantId
  | .alreadyClaimed grantId => some grantId
  | .pendingClaim _ _ | .noPriorLease => none

/-- Where a call stands: before the operation the constructor names. -/
inductive ResumeStage where
  | start
  | readApproval (approvalRequestId : ApprovalRequestId) (fingerprint : InvocationFingerprint)
  | findActive (fingerprint : InvocationFingerprint)
  | findClaimed (fingerprint : InvocationFingerprint)
  | claimFresh (grantId : CapabilityGrantId) (fingerprint : InvocationFingerprint)
  | beginDispatch (grantId : CapabilityGrantId) (fingerprint : InvocationFingerprint)
  | authorize (lease : ResumedLeaseState)
  | claimPending (grantId : CapabilityGrantId) (fingerprint : InvocationFingerprint)
      (obligations : List Obligation)
  | prepare (claimed : Option CapabilityGrantId) (obligations : List Obligation)
  | dispatch (claimed : Option CapabilityGrantId) (obligations : List Obligation)
  | completeObligations (claimed : Option CapabilityGrantId) (obligations : List Obligation)
      (result : CapabilityDispatchResult)
  | consume (grantId : CapabilityGrantId) (result : CapabilityDispatchResult)
  | completeRun (result : CapabilityDispatchResult)
  | failRun (errorKind : String) (toRevoke : Option CapabilityGrantId)
      (error : CapabilityInvocationError)
  | blockAuth (errorKind : String) (claimed : Option CapabilityGrantId)
      (error : CapabilityInvocationError)
  | abortLease (grantId : CapabilityGrantId) (error : CapabilityInvocationError)
  | revokeLease (grantId : CapabilityGrantId) (error : CapabilityInvocationError)
  | returned (result : Except CapabilityInvocationError CapabilityDispatchResult)

namespace ResumeStage

def reject (error : CapabilityInvocationError) : ResumeStage := .returned (.error error)

def failWith (errorKind : String) (error : CapabilityInvocationError) : ResumeStage :=
  .failRun errorKind none error

/-- A lost claim leaves the run record to the winner, another failure marks it. -/
def claimLost (error : CapabilityLeaseError) : ResumeStage :=
  if claimErrorMayBeConcurrentResume error then reject (.lease error)
  else failWith "ApprovalLeaseClaim" (.lease error)

def revokeThenReject (toRevoke : Option CapabilityGrantId) (error : CapabilityInvocationError) :
    ResumeStage :=
  match toRevoke with
  | some grantId => .revokeLease grantId error
  | none => reject error

/-- The run-state transition and the lease cleanup behind a failed preparation or dispatch. -/
def afterError (claimed : Option CapabilityGrantId) (error : CapabilityInvocationError) :
    ResumeStage :=
  match error.runStateTransition with
  | some (.fail errorKind) => .failRun errorKind claimed error
  | some (.blockAuth errorKind) => .blockAuth errorKind claimed error
  | none => revokeThenReject claimed error

end ResumeStage

namespace ResumeStore

variable (store : ResumeStore) (answer : ResumeAnswer)

/-- `run_state.get`: the record is found under its own scope only. -/
def readRun (context : ExecutionContext) : Except RunStateError RunRecord :=
  match answer.runStateFault with
  | some error => .error error
  | none =>
    match store.run with
    | some record =>
      if context.resourceScope = store.scope then .ok record
      else .error (.unknownInvocation context.invocationId)
    | none => .error (.unknownInvocation context.invocationId)

/-- `apply_update`: a write that fails is only logged by the calls. -/
def writeRun (update : RunRecord → RunRecord) : ResumeStore :=
  match answer.runStateFault with
  | some _ => store
  | none => { store with run := store.run.map update }

def runLease (op : LeaseOp)
    (grantId : CapabilityGrantId) : Except CapabilityLeaseError ResumeStore :=
  match answer.leaseFault with
  | some error => .error error
  | none => (store.leases.run answer.now op grantId).map fun leases => { store with leases }

/-- A lease operation whose failure is only logged. -/
def tryLease (op : LeaseOp) (grantId : CapabilityGrantId) : ResumeStore :=
  match store.runLease answer op grantId with
  | .ok after => after
  | .error _ => store

end ResumeStore

namespace CapabilityHost

variable (host : CapabilityHost) (request : ResumeRequest) (answer : ResumeAnswer)

def fingerprint : Except HostApiError InvocationFingerprint :=
  host.forDispatch request.context.resourceScope request.capabilityId request.estimate
    request.input

/-- `resume_json` up to its first store operation and the checks on the record. -/
def resumeStart (approvalRequestId : ApprovalRequestId) (store : ResumeStore) : ResumeStage :=
  let missing := fun name => .reject (.resumeStoreMissing request.capabilityId name)
  if !host.hasRunState then missing "run_state"
  else if !host.hasApprovalRequests then missing "approval_requests"
  else if !host.hasCapabilityLeases then missing "capability_leases"
  else if request.context.validate ≠ .ok () then
    .reject (.authorizationDenied request.capabilityId .internalInvariantViolation)
  else
    match host.fingerprint request with
    | .error source => .reject (.invocationFingerprint request.capabilityId source)
    | .ok fingerprint =>
      match store.readRun answer request.context with
      | .error error => .reject (.runState error)
      | .ok record =>
        if record.authenticatedActorUserId ≠ request.context.authenticatedActorUserId then
          .reject (.authorizationDenied request.capabilityId .policyDenied)
        else if record.status ≠ .blockedApproval then
          .reject (.resumeNotBlocked request.capabilityId record.status)
        else
          let capabilityMismatch := record.capabilityId ≠ request.capabilityId
          let approvalRequestMismatch := record.approvalRequestId ≠ some approvalRequestId
          if capabilityMismatch ∨ approvalRequestMismatch then
            .failWith "ResumeContextMismatch" (.resumeContextMismatch request.capabilityId
              (resumeContextMismatchKind capabilityMismatch approvalRequestMismatch))
          else .readApproval approvalRequestId fingerprint

/-- `auth_resume_json` up to its first store operation and the checks on the record. -/
def authResumeStart (approvalRequestId : Option ApprovalRequestId) (store : ResumeStore) :
    ResumeStage :=
  let missing := fun name => .reject (.resumeStoreMissing request.capabilityId name)
  if !host.hasRunState then missing "run_state"
  else if request.context.validate ≠ .ok () then
    .reject (.authorizationDenied request.capabilityId .internalInvariantViolation)
  else
    match store.readRun answer request.context with
    | .error error => .reject (.runState error)
    | .ok record =>
      if record.authenticatedActorUserId ≠ request.context.authenticatedActorUserId then
        .reject (.authorizationDenied request.capabilityId .policyDenied)
      else if record.status ≠ .blockedAuth then
        .reject (.resumeNotBlocked request.capabilityId record.status)
      else if record.capabilityId ≠ request.capabilityId then
        .failWith "ResumeContextMismatch" (.resumeContextMismatch request.capabilityId
          (resumeContextMismatchKind true false))
      else if !host.registry request.capabilityId then
        .failWith "UnknownCapability" (.unknownCapability request.capabilityId)
      else
        match approvalRequestId with
        | none => .authorize .noPriorLease
        | some approvalRequestId =>
          if !host.hasApprovalRequests then missing "approval_requests"
          else if !host.hasCapabilityLeases then missing "capability_leases"
          else
            match host.fingerprint request with
            | .error source => .reject (.invocationFingerprint request.capabilityId source)
            | .ok fingerprint => .readApproval approvalRequestId fingerprint

/-- The checks on the approval; only `resume_json` looks the capability up behind them. -/
def checkApproval (approvalRequestId : ApprovalRequestId) (fingerprint : InvocationFingerprint) :
    ResumeStage :=
  match answer.runStateFault with
  | some error => .reject (.runState error)
  | none =>
    match host.approvals approvalRequestId with
    | none => .reject (.runState (.unknownApprovalRequest approvalRequestId))
    | some approval =>
      if approval.status ≠ .approved then
        let error := .approvalNotApproved request.capabilityId approval.status
        if approval.status ≠ .pending then
          .failWith (approvalNotApprovedErrorKind approval.status) error
        else .reject error
      else
        match validateApprovalRequestMatchesInvocation approval.request request with
        | .error error => .failWith "ApprovalRequestMismatch" error
        | .ok () =>
          if approval.request.invocationFingerprint ≠ some fingerprint then
            .failWith "InvocationFingerprintMismatch"
              (.approvalFingerprintMismatch request.capabilityId)
          else
            match request.kind with
            | .resume _ =>
              if !host.registry request.capabilityId then
                .failWith "UnknownCapability" (.unknownCapability request.capabilityId)
              else .findActive fingerprint
            | .authResume _ => .findActive fingerprint

def leaseMissing : ResumeStage :=
  .failWith "ApprovalLeaseMissing" (.approvalLeaseMissing request.capabilityId)

/-- `matching_approval_lease` and what each entry point does with its result. -/
def lookForActive (fingerprint : InvocationFingerprint) (store : ResumeStore) : ResumeStage :=
  match store.leases.matchingApprovalLease answer.now answer.hiddenLeases request.capabilityId
      fingerprint, request.kind with
  | some lease, .resume _ => .authorize (.pendingClaim lease.grantId fingerprint)
  | some lease, .authResume _ => .claimFresh lease.grantId fingerprint
  | none, .resume _ => leaseMissing request
  | none, .authResume _ => .findClaimed fingerprint

def lookForClaimed (fingerprint : InvocationFingerprint) (store : ResumeStore) : ResumeStage :=
  match store.leases.matchingClaimedApprovalLease answer.hiddenLeases request.capabilityId
      fingerprint with
  | some lease => .beginDispatch lease.grantId fingerprint
  | none => leaseMissing request

/-- `authorize_dispatch_with_trust` and what each decision leads to. -/
def authorizeResumed (lease : ResumedLeaseState) : ResumeStage :=
  match answer.decision with
  | .allow obligations =>
    match lease with
    | .pendingClaim grantId fingerprint => .claimPending grantId fingerprint obligations
    | .alreadyClaimed grantId => .prepare (some grantId) obligations
    | .noPriorLease => .prepare none obligations
  | .deny reason =>
    .failRun "AuthorizationDenied" lease.toRevoke
      (.authorizationDenied request.capabilityId reason)
  | .requireApproval =>
    .failRun "AuthorizationRequiresApproval" lease.toRevoke
      (.authorizationRequiresApproval request.capabilityId)

def prepareObligations (obligations : List Obligation) : Except CapabilityInvocationError Unit :=
  if obligations = [] then .ok ()
  else if !host.hasObligationHandler then
    .error (.unsupportedObligations request.capabilityId obligations)
  else answer.prepared.mapError (prepareObligationErrorToInvocation request.capabilityId)

def completeDispatchObligations (obligations : List Obligation)
    (dispatch : CapabilityDispatchResult) :
    Except CapabilityInvocationError CapabilityDispatchResult :=
  if obligations = [] then .ok dispatch
  else if !host.hasObligationHandler then
    if postDispatchObligations obligations = [] then .ok dispatch
    else .error (.unsupportedObligations request.capabilityId (postDispatchObligations obligations))
  else answer.completed.mapError (completionObligationErrorToInvocation request.capabilityId)

/-- The operation a call stands before, and where it stands afterwards. -/
def advance (store : ResumeStore) : ResumeStage → ResumeStore × ResumeStage
  | .start =>
    (store, match request.kind with
      | .resume approvalRequestId => host.resumeStart request answer approvalRequestId store
      | .authResume approvalRequestId =>
        host.authResumeStart request answer approvalRequestId store)
  | .readApproval approvalRequestId fingerprint =>
    (store, host.checkApproval request answer approvalRequestId fingerprint)
  | .findActive fingerprint => (store, lookForActive request answer fingerprint store)
  | .findClaimed fingerprint => (store, lookForClaimed request answer fingerprint store)
  | .claimFresh grantId fingerprint =>
    match store.runLease answer (.claim fingerprint) grantId with
    | .ok after => (after, .beginDispatch grantId fingerprint)
    | .error error => (store, .claimLost error)
  | .beginDispatch grantId fingerprint =>
    match store.runLease answer (.beginDispatchClaimed fingerprint) grantId with
    | .ok after => (after, .authorize (.alreadyClaimed grantId))
    | .error error => (store, .claimLost error)
  | .authorize lease => (store, authorizeResumed request answer lease)
  | .claimPending grantId fingerprint obligations =>
    match store.runLease answer (.claim fingerprint) grantId with
    | .ok after => (after, .prepare (some grantId) obligations)
    | .error error => (store, .claimLost error)
  | .prepare claimed obligations =>
    match host.prepareObligations request answer obligations with
    | .ok () => (store, .dispatch claimed obligations)
    | .error error => (store, .afterError claimed error)
  | .dispatch claimed obligations =>
    match answer.dispatched with
    | .ok result => (store, .completeObligations claimed obligations result)
    | .error error =>
      (store, .afterError claimed
        (enrichDispatchErrorCredentialRequirements error obligations).toInvocation)
  | .completeObligations claimed obligations result =>
    match host.completeDispatchObligations request answer obligations result with
    | .ok result =>
      match claimed with
      | some grantId => (store, .consume grantId result)
      | none => (store, .completeRun result)
    | .error error => (store, .failRun (obligationInvocationErrorKind error) claimed error)
  | .consume grantId result => (store.tryLease answer .consume grantId, .completeRun result)
  | .completeRun result => (store.writeRun answer RunRecord.complete, .returned (.ok result))
  | .failRun errorKind toRevoke error =>
    (store.writeRun answer (·.fail errorKind), .revokeThenReject toRevoke error)
  | .blockAuth errorKind claimed error =>
    (store.writeRun answer (·.blockAuth errorKind), match claimed with
      | some grantId => .abortLease grantId error
      | none => .reject error)
  | .abortLease grantId error =>
    (store.tryLease answer .abortDispatchClaimed grantId, .reject error)
  | .revokeLease grantId error => (store.tryLease answer .revoke grantId, .reject error)
  | .returned result => (store, .returned result)

end CapabilityHost

/-! ## Interleaved calls -/

/-- The stores, where each call stands, and the calls the dispatcher has returned success
to, in order. -/
structure ResumeState (ι : Type) where
  store : ResumeStore
  stages : ι → ResumeStage
  effects : List ι

/-- Whether the step is a dispatch that the dispatcher answers with success. -/
def ResumeStage.takesEffect (answer : ResumeAnswer) : ResumeStage → Bool
  | .dispatch _ _ => answer.dispatched.isOk
  | _ => false

section

variable {ι : Type} [DecidableEq ι] (host : CapabilityHost) (requests : ι → ResumeRequest)

def ResumeState.step (state : ResumeState ι) (label : ι × ResumeAnswer) : ResumeState ι :=
  let moved := host.advance (requests label.1) label.2 state.store (state.stages label.1)
  { store := moved.1
    stages := Function.update state.stages label.1 moved.2
    effects :=
      if (state.stages label.1).takesEffect label.2 then state.effects ++ [label.1]
      else state.effects }

def ResumeState.initial (store : ResumeStore) : ResumeState ι where
  store
  stages := fun _ => .start
  effects := []

/-- Any number of calls for the invocation whose records are in `store`. -/
def resumeSystem (store : ResumeStore) : System (ResumeState ι) (ι × ResumeAnswer) :=
  .ofFunction (· = .initial store) (ResumeState.step host requests)

end

end Ironclaw.Capabilities
