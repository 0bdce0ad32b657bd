import Ironclaw.Lib.System
import Ironclaw.Turns.Submit
import Ironclaw.Turns.Transitions

/-!
# The turn store as a transition system

One label for each critical section that can change the store, with everything the
call takes from outside.  A submission is several sections with calls of others in
between; every other operation is one section.  The read-only operations are left
out: they are steps that change nothing.
-/

namespace Ironclaw.Turns

open Lib Turns.Inner

inductive StoreOp where
  | claimSubmit (key : SubmitIdempotencyKey)
  | refuseLineage (key : SubmitIdempotencyKey) (receivedAt : TurnTimestamp)
  | submitAdmission (context : CallContext) (key : SubmitIdempotencyKey)
      (receivedAt : TurnTimestamp)
  | submitCommit (context : CallContext) (key : SubmitIdempotencyKey)
      (request : SubmitTurnRequest)
  | submitChildLineage (key : SubmitIdempotencyKey) (request : SubmitChildRunRequest)
  | submitChildCommit (context : CallContext) (key : SubmitIdempotencyKey)
      (request : SubmitChildRunRequest)
  /-- A `SubmitInFlightGuard` is dropped. -/
  | dropInFlight (key : SubmitIdempotencyKey)
  | resumeTurn (now : TurnTimestamp) (request : ResumeTurnRequest)
  | retryTurn (context : CallContext) (request : RetryTurnRequest)
  | requestCancel (now : TurnTimestamp) (request : CancelRunRequest)
  | reserveTreeDescendants (scope : TurnScope) (rootRunId : TurnRunId) (delta cap : Nat)
  | releaseTreeDescendants (scope : TurnScope) (rootRunId : TurnRunId) (delta : Nat)
      (idempotencyKey : TurnRunId)
  | pruneReleasedChild (scope : TurnScope) (rootRunId childRunId : TurnRunId)
  | claimNextRun (now : TurnTimestamp) (request : ClaimRunRequest)
  | claimNextRuns (request : ClaimRunsRequest) (fresh : Nat → TurnTimestamp × TurnLeaseToken)
  | heartbeat (now : TurnTimestamp) (claim : LeaseClaim)
  | recoverExpiredLeases (now : TurnTimestamp) (request : RecoverExpiredLeasesRequest)
      (expired : List TurnRunId)
  | recordModelRouteSnapshot (now : TurnTimestamp) (claim : LeaseClaim)
      (snapshot : LoopModelRouteSnapshot)
  | blockRun (now : TurnTimestamp) (request : BlockRunRequest)
  | completeRun (now : TurnTimestamp) (claim : LeaseClaim)
  | cancelRun (now : TurnTimestamp) (claim : LeaseClaim)
  | failRun (now : TurnTimestamp) (claim : LeaseClaim) (failure : SanitizedFailure)
  | recordRunnerFailure (now : TurnTimestamp) (claim : LeaseClaim) (failure : SanitizedFailure)
  | relinquishRun (now : TurnTimestamp) (claim : LeaseClaim)
  | applyValidatedLoopExit (now : TurnTimestamp) (claim : LeaseClaim) (mapping : LoopExitMapping)
      (modelUsage : Option LoopModelUsage)
  | putLoopCheckpoint (now : TurnTimestamp) (checkpointId : TurnCheckpointId)
      (request : PutLoopCheckpointRequest)

namespace StoreOp

def apply (env : StoreEnv) (inner : Inner) : StoreOp → Inner
  | .claimSubmit key => (inner.claimSubmitIdempotency key).2
  | .refuseLineage key receivedAt => (inner.refuseLineage key receivedAt).2
  | .submitAdmission context key receivedAt => (inner.submitAdmission context key receivedAt).2
  | .submitCommit context key request => (inner.submitCommit env context key request).2
  | .submitChildLineage key request => (inner.submitChildLineage key request).2
  | .submitChildCommit context key request => (inner.submitChildCommit context key request).2
  | .dropInFlight key => inner.clearInFlight key
  | .resumeTurn now request => (inner.resumeTurn now request).2
  | .retryTurn context request => (inner.retryTurn context request).2
  | .requestCancel now request => (inner.requestCancel now request).2
  | .reserveTreeDescendants scope rootRunId delta cap =>
    (inner.reserveTreeDescendants scope rootRunId delta cap).2
  | .releaseTreeDescendants scope rootRunId delta idempotencyKey =>
    (inner.releaseTreeDescendants scope rootRunId delta idempotencyKey).2
  | .pruneReleasedChild scope rootRunId childRunId =>
    (inner.pruneReleasedChild scope rootRunId childRunId).2
  | .claimNextRun now request => (inner.claimMatchingQueuedRun env now request).2
  | .claimNextRuns request fresh => (inner.claimNextRuns env request fresh).2
  | .heartbeat now claim => (inner.heartbeat env now claim).2
  | .recoverExpiredLeases now _ expired => (inner.recoverExpiredLeases now expired).2
  | .recordModelRouteSnapshot now claim snapshot =>
    (inner.recordModelRouteSnapshot env now claim snapshot).2
  | .blockRun now request => (inner.blockRun now request).2
  | .completeRun now claim => (inner.completeRun now claim).2
  | .cancelRun now claim => (inner.cancelRun now claim).2
  | .failRun now claim failure => (inner.failRun now claim failure).2
  | .recordRunnerFailure now claim failure => (inner.recordRunnerFailure now claim failure).2
  | .relinquishRun now claim => (inner.relinquishRun now claim).2
  | .applyValidatedLoopExit now claim mapping modelUsage =>
    (inner.applyValidatedLoopExit now claim mapping modelUsage).2
  | .putLoopCheckpoint now checkpointId request =>
    (inner.putLoopCheckpoint now checkpointId request).2

/-- What the code guarantees about the outside inputs of a call: a retry draws run
identifiers until it has an unused one, and recovery walks the table's expired runs. -/
def Admissible (inner : Inner) : StoreOp → Prop
  | .retryTurn context _ => inner.records.get context.freshRunId = none
  | .recoverExpiredLeases _ request expired => inner.EnumeratesExpired request expired
  | _ => True

def isSubmission : StoreOp → Bool
  | .claimSubmit _ | .refuseLineage _ _ | .submitAdmission _ _ _ | .submitCommit _ _ _
  | .submitChildLineage _ _ | .submitChildCommit _ _ _ => true
  | _ => false

theorem admissible_of_isSubmission (op : StoreOp) (inner : Inner)
    (submission : op.isSubmission = true) : op.Admissible inner := by
  cases op with
  | retryTurn _ request | recoverExpiredLeases => cases submission
  | _ => trivial

end StoreOp

open StoreOp

/-- The turn store, started empty with any limits. -/
def turnStore (env : StoreEnv) : System Inner StoreOp where
  init inner := ∃ limits, inner = withLimits limits
  step before op after := op.Admissible before ∧ after = op.apply env before

namespace turnStore

variable {env : StoreEnv} {guard : Inner → StoreOp → Prop}

theorem reachable_apply {inner : Inner} (reached : (turnStore env).Reachable guard inner)
    (op : StoreOp) (admissible : op.Admissible inner) (allowed : guard inner op) :
    (turnStore env).Reachable guard (op.apply env inner) :=
  .next reached allowed ⟨admissible, rfl⟩

theorem reachable_submitTurn {inner : Inner}
    (reached : (turnStore env).Reachable System.anyStep inner) (context : CallContext)
    (request : SubmitTurnRequest) :
    (turnStore env).Reachable System.anyStep (inner.submitTurn env context request).2 := by
  have claim := reachable_apply reached (.claimSubmit ⟨request.scope, request.idempotencyKey⟩)
    trivial trivial
  simp only [apply] at claim
  unfold submitTurn
  dsimp only
  split
  iterate 2 next claimed => rwa [claimed] at claim
  next claimed =>
    rw [claimed] at claim
    split
    · exact reachable_apply claim (.refuseLineage _ _) trivial trivial
    have admission := reachable_apply claim
      (.submitAdmission context ⟨request.scope, request.idempotencyKey⟩ request.receivedAt)
      trivial trivial
    simp only [apply] at admission
    split
    · rename_i answer
      rwa [answer] at admission
    · rename_i answer
      rw [answer] at admission
      exact reachable_apply admission (.submitCommit context _ request) trivial trivial

theorem submitChildTurn_keeps (env : StoreEnv) {motive : Inner → Prop} (context : CallContext)
    (request : SubmitChildRunRequest) (kept : ∀ before op, isSubmission op = true → motive before →
      motive (op.apply env before))
    {inner : Inner} (holds : motive inner) :
    motive (inner.submitChildTurn context request).2 := by
  have claim := kept inner (.claimSubmit ⟨request.childScope, request.idempotencyKey⟩) rfl holds
  simp only [apply] at claim
  unfold submitChildTurn
  dsimp only
  split
  iterate 2 next claimed => rwa [claimed] at claim
  next claimed =>
    rw [claimed] at claim
    have lineage := kept _
      (.submitChildLineage ⟨request.childScope, request.idempotencyKey⟩ request) rfl claim
    simp only [apply] at lineage
    split
    · rename_i answer
      rwa [answer] at lineage
    · rename_i answer
      rw [answer] at lineage
      have admission := kept _
        (.submitAdmission context ⟨request.childScope, request.idempotencyKey⟩
          request.receivedAt) rfl lineage
      simp only [apply] at admission
      split
      · rename_i answer
        rwa [answer] at admission
      · rename_i answer
        rw [answer] at admission
        exact kept _ (.submitChildCommit context _ request) rfl admission

end turnStore

end Ironclaw.Turns
