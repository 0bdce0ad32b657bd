import Ironclaw.HostApi.Scope

/-!
# Run records and approval records

One record per invocation says what the invocation waits for.  The stores overwrite its
status without comparing the old one; both stores apply the updates below to the record
they find.
-/

namespace Ironclaw.RunState

open HostApi

inductive RunStatus where
  | running
  | blockedApproval
  | blockedAuth
  | completed
  | failed
  deriving DecidableEq

structure RunRecord where
  invocationId : InvocationId
  capabilityId : CapabilityId
  scope : ResourceScope
  authenticatedActorUserId : Option UserId
  status : RunStatus
  approvalRequestId : Option ApprovalRequestId
  errorKind : Option String

inductive ApprovalStatus where
  | pending
  | approved
  | denied
  | expired
  | discarded
  deriving DecidableEq

structure ApprovalRecord where
  request : ApprovalRequest
  status : ApprovalStatus

inductive RunStateError where
  | unknownInvocation (invocationId : InvocationId)
  | invocationAlreadyExists (invocationId : InvocationId)
  | unknownApprovalRequest (requestId : ApprovalRequestId)
  | approvalRequestAlreadyExists (requestId : ApprovalRequestId)
  | approvalNotPending (requestId : ApprovalRequestId) (status : ApprovalStatus)
  | invalidPath (reason : String)
  | filesystem (reason : String)
  | serialization (reason : String)
  | deserialization (reason : String)
  | backend (reason : String)

namespace RunRecord

variable (record : RunRecord)

def blockAuth (errorKind : String) : RunRecord :=
  { record with status := .blockedAuth, approvalRequestId := none, errorKind := some errorKind }

def complete : RunRecord :=
  { record with status := .completed, approvalRequestId := none, errorKind := none }

def fail (errorKind : String) : RunRecord :=
  { record with status := .failed, approvalRequestId := none, errorKind := some errorKind }

end RunRecord

end Ironclaw.RunState
