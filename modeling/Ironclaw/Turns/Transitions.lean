import Ironclaw.Turns.Inner

/-!
# Runner transitions

The transition port of the store: a runner claims queued runs, keeps its lease
alive, parks a run on a gate or ends it, and expired leases are recovered.  A run
record is taken out of the table, changed, and put back; a refused call puts it
back as it was.
-/

namespace Ironclaw.Turns

open Lib SanitizedFailure

def ensureActiveLease (record : RunRecord) (claim : LeaseClaim) (now : TurnTimestamp) :
    Except TurnError Unit :=
  if record.runnerId ≠ some claim.runnerId ∨ record.leaseToken ≠ some claim.leaseToken then
    .error .leaseMismatch
  else if record.leaseExpiresAt.any fun expiresAt => expiresAt ≤ now then
    .error (.conflict "turn run lease expired")
  else .ok ()

/-- What an expired lease turns a run into. -/
structure LeaseExpiredOutcome where
  status : TurnStatus
  failure : Option SanitizedFailure
  eventKind : TurnEventKind
  eventDetail : Option String

def expiredLeaseTerminalOutcome : TurnStatus → LeaseExpiredOutcome
  | .cancelRequested => ⟨.cancelled, none, .cancelled, none⟩
  | _ =>
    let failure := fromTrustedStatic "lease_expired"
    ⟨.failed, some failure, .failed, some failure.category⟩

/-- The outcome of a loop-exit transition on a record that was taken out. -/
inductive AppliedLoopTransition where
  | applied (record : RunRecord) (state : TurnRunState) (pruneTerminal : Bool)
  | rejected (record : RunRecord) (error : TurnError)

namespace RunRecord

variable (record : RunRecord)

def closed (status : TurnStatus) (failure : Option SanitizedFailure)
    (checkpointId : Option TurnCheckpointId) (eventCursor : EventCursor) : RunRecord :=
  { record with
    status
    checkpointId
    failure
    runnerId := none
    leaseToken := none
    leaseExpiresAt := none
    eventCursor }

def parked (reason : BlockedReason) (checkpointId : TurnCheckpointId)
    (blockedActivityId : Option CapabilityActivityId) (eventCursor : EventCursor) : RunRecord :=
  { record with
    status := reason.status
    checkpointId := some checkpointId
    gateRef := some reason.gateRef
    blockedActivityId
    credentialRequirements := reason.credentialRequirements
    runnerId := none
    leaseToken := none
    leaseExpiresAt := none
    eventCursor }

/-- The loop reports a running total, so a reported usage replaces the stored one. -/
def withUsage (modelUsage : Option LoopModelUsage) : RunRecord :=
  { record with modelUsage := modelUsage.orElse fun _ => record.modelUsage }

end RunRecord

namespace Inner

def putBack {α : Type} (taken : Inner) (record : RunRecord) (error : TurnError) :
    Except TurnError α × Inner :=
  (.error error, taken.insertRecord record.runId record)

/-- What the calls of a runner have in common: the run is taken out, and a call without its
active lease is refused. -/
def withLease {α : Type} (now : TurnTimestamp) (claim : LeaseClaim)
    (refuse : Inner → RunRecord → TurnError → Except TurnError α × Inner)
    (next : Inner → RunRecord → Except TurnError α × Inner) (inner : Inner) :
    Except TurnError α × Inner :=
  match inner.records.get claim.runId with
  | none => (.error .scopeNotFound, inner)
  | some record =>
    let taken := inner.removeRecord claim.runId
    match ensureActiveLease record claim now with
    | .error error => refuse taken record error
    | .ok () => next taken record

/-- The steps every ending transition shares, with the record already taken out:
slot accounting, lock release, queue removal, the event and the terminal mark. -/
def closeRun (taken : Inner) (previous closed : RunRecord) (kind : TurnEventKind)
    (sanitizedReason detail : Option String) (now : TurnTimestamp) : Inner :=
  taken.applyStatusTransition (.between previous.status closed.status) closed
    |>.nextCursor
    |>.releaseActiveLock closed
    |>.removeQueuedRun closed.runId
    |>.pushEvent closed kind sanitizedReason detail now
    |>.markTerminal closed.runId

/-- The steps of parking a run on a gate, with the record already taken out. -/
def parkRun (taken : Inner) (previous parked : RunRecord) (checkpointId : TurnCheckpointId)
    (stateRef : LoopCheckpointStateRef) (gateRef : GateRef) (now : TurnTimestamp) : Inner :=
  taken.applyStatusTransition (.between previous.status parked.status) parked
    |>.nextCursor
    |>.recordCheckpoint parked checkpointId stateRef gateRef now
    |>.updateActiveLock parked now
    |>.pushEvent parked .blocked none none now

/-! ## Claiming -/

/-- The loop of `pop_matching_queued_run`, one round per queued run. -/
def popMatchingQueuedRunLoop (scopeFilter : Option TurnScope) :
    Nat → Inner → Option TurnRunId × Inner
  | 0, inner => (none, inner)
  | rounds + 1, inner =>
    match inner.queuedRuns with
    | [] => (none, inner)
    | runId :: rest =>
      let popped := { inner with queuedRuns := rest }
      match inner.records.get runId with
      | none => popMatchingQueuedRunLoop scopeFilter rounds popped
      | some record =>
        if record.status ≠ .queued then popMatchingQueuedRunLoop scopeFilter rounds popped
        else if scopeFilter.all (fun scope => scope = record.scope) &&
            inner.concurrency.canClaim (slotInfoFor record) then
          (some runId, popped)
        else popMatchingQueuedRunLoop scopeFilter rounds (popped.pushQueuedRun runId)

def popMatchingQueuedRun (inner : Inner) (scopeFilter : Option TurnScope) :
    Option TurnRunId × Inner :=
  popMatchingQueuedRunLoop scopeFilter inner.queuedRuns.length inner

theorem popMatchingQueuedRunLoop_eq (scopeFilter : Option TurnScope) (rounds : Nat)
    (inner : Inner) : ∃ queue, (popMatchingQueuedRunLoop scopeFilter rounds inner).2 =
      { inner with queuedRuns := queue } := by
  induction rounds generalizing inner with
  | zero => exact ⟨inner.queuedRuns, rfl⟩
  | succ _ ih =>
    unfold popMatchingQueuedRunLoop
    split
    · exact ⟨inner.queuedRuns, rfl⟩
    rename_i runId rest _
    iterate 2
      split
      · exact ih { inner with queuedRuns := rest }
    split
    · exact ⟨rest, rfl⟩
    · exact ih ({ inner with queuedRuns := rest }.pushQueuedRun runId)

variable (env : StoreEnv)

def claimedRecord (inner : Inner) (record : RunRecord) (runnerId : TurnRunnerId)
    (leaseToken : TurnLeaseToken) (now : TurnTimestamp) : RunRecord :=
  { record with
    status := .running
    runnerId := some runnerId
    leaseToken := some leaseToken
    leaseExpiresAt := some (inner.nextLeaseExpiry env now)
    lastHeartbeatAt := some now
    claimCount := saturatingAdd record.claimCount 1
    eventCursor := inner.cursorAfter }

def claimMatchingQueuedRun (now : TurnTimestamp) (request : ClaimRunRequest)
    (inner : Inner) : Except TurnError (Option ClaimedTurnRun) × Inner :=
  match inner.popMatchingQueuedRun request.scopeFilter with
  | (none, popped) => (.ok none, popped)
  | (some runId, popped) =>
    match popped.records.get runId with
    | none => (.error .scopeNotFound, popped)
    | some record =>
      let claimed := claimedRecord env popped record request.runnerId request.leaseToken now
      (.ok (some ⟨claimed.state, claimed.profile.resolved, request.runnerId, request.leaseToken⟩),
        popped.removeRecord runId
          |>.nextCursor
          |>.updateActiveLock claimed now
          |>.applyStatusTransition (.between record.status .running) claimed
          |>.pushEvent claimed .runnerClaimed none none now
          |>.insertRecord runId claimed)

/-- The loop of `claim_next_runs`; `fresh` gives each round its clock reading and
its new lease token. -/
def claimNextRunsLoop (env : StoreEnv) (request : ClaimRunsRequest)
    (fresh : Nat → TurnTimestamp × TurnLeaseToken) :
    Nat → List ClaimedTurnRun → Inner → Except TurnError (List ClaimedTurnRun) × Inner
  | 0, claimed, inner => (.ok claimed, inner)
  | rounds + 1, claimed, inner =>
    match claimMatchingQueuedRun env (fresh rounds).1
        ⟨request.runnerId, (fresh rounds).2, request.scopeFilter⟩ inner with
    | (.error error, next) => (.error error, next)
    | (.ok none, next) => (.ok claimed, next)
    | (.ok (some run), next) => claimNextRunsLoop env request fresh rounds (claimed ++ [run]) next

def claimNextRuns (request : ClaimRunsRequest)
    (fresh : Nat → TurnTimestamp × TurnLeaseToken) (inner : Inner) :
    Except TurnError (List ClaimedTurnRun) × Inner :=
  claimNextRunsLoop env request fresh request.maxRuns [] inner

theorem claimNextRunsLoop_keeps {motive : Inner → Prop} {env : StoreEnv}
    (kept : ∀ now request inner, motive inner →
      motive (claimMatchingQueuedRun env now request inner).2)
    (request : ClaimRunsRequest) (fresh : Nat → TurnTimestamp × TurnLeaseToken) (rounds : Nat)
    (claimed : List ClaimedTurnRun) {inner : Inner} (holds : motive inner) :
    motive (claimNextRunsLoop env request fresh rounds claimed inner).2 := by
  induction rounds generalizing claimed inner with
  | zero => exact holds
  | succ rounds ih =>
    have first := kept (fresh rounds).1 ⟨request.runnerId, (fresh rounds).2, request.scopeFilter⟩
      inner holds
    unfold claimNextRunsLoop
    generalize claimMatchingQueuedRun env _ _ inner = round at first
    rcases round with ⟨_ | _ | run, _⟩
    · exact first
    · exact first
    · exact ih (claimed ++ [run]) first

/-! ## Keeping and parking -/

def beatingRecord (taken : Inner) (record : RunRecord) (now : TurnTimestamp) : RunRecord :=
  { record with
    lastHeartbeatAt := some now
    leaseExpiresAt := some (taken.nextLeaseExpiry env now)
    eventCursor := taken.cursorAfter }

def heartbeat (now : TurnTimestamp) (claim : LeaseClaim) :
    Inner → Except TurnError EventCursor × Inner :=
  withLease now claim putBack fun taken record =>
    if record.status ≠ .running then
      taken.putBack record (.invalidTransition record.status .running)
    else
      let beating := beatingRecord env taken record now
      (.ok beating.eventCursor, taken.nextCursor
          |>.touchActiveLock beating now
          |>.pushEvent beating .runnerHeartbeat none none now
          |>.insertRecord beating.runId beating)

def recordModelRouteSnapshot (now : TurnTimestamp) (claim : LeaseClaim)
    (snapshot : LoopModelRouteSnapshot) : Inner → Except TurnError TurnRunState × Inner :=
  withLease now claim putBack fun taken record =>
    if record.status ≠ .running then
      taken.putBack record (.invalidTransition record.status .running)
    else match env.validateRoute snapshot with
      | .error reason => taken.putBack record (.invalidRequest reason)
      | .ok () =>
        match record.resolvedModelRoute with
        | some existing =>
          if existing ≠ snapshot then
            taken.putBack record (.conflict "run already has a different resolved model route")
          else (.ok record.state, taken.insertRecord record.runId record)
        | none =>
          let routed := { record with resolvedModelRoute := some snapshot }
          (.ok routed.state, taken.touchActiveLock routed now |>.insertRecord routed.runId routed)

variable (now : TurnTimestamp)

def blockRun (request : BlockRunRequest) : Inner → Except TurnError TurnRunState × Inner :=
  withLease now request.toLeaseClaim putBack fun taken record =>
    if record.status ≠ .running then
      taken.putBack record (.invalidTransition record.status request.reason.status)
    else
      let parked := record.parked request.reason request.checkpointId none taken.cursorAfter
      (.ok parked.state, taken.parkRun record parked request.checkpointId request.stateRef
            request.reason.gateRef now
          |>.insertRecord parked.runId parked)

/-! ## Ending -/

/-- A refused end of a run: the record goes back as it was, and ended runs are pruned. -/
def putBackPruned {α : Type} (taken : Inner) (record : RunRecord) (error : TurnError) :
    Except TurnError α × Inner :=
  (.error error, (taken.insertRecord record.runId record).pruneTerminalRecords)

variable (claim : LeaseClaim)

def cancelCompletionTransition : Inner → Except TurnError TurnRunState × Inner :=
  withLease now claim putBackPruned fun taken record =>
    if record.status ≠ .cancelRequested then
      taken.putBackPruned record (.invalidTransition record.status .cancelled)
    else
      let closed := record.closed .cancelled none record.checkpointId taken.cursorAfter
      (.ok closed.state, taken.closeRun record closed .cancelled none none now
          |>.insertRecord closed.runId closed
          |>.pruneTerminalRecords)

def terminalTransition (status : TurnStatus) (failure : Option SanitizedFailure)
    (kind : TurnEventKind) : Inner → Except TurnError TurnRunState × Inner :=
  withLease now claim putBackPruned fun taken record =>
    if record.status = .cancelRequested ∨ record.status.isTerminal then
      taken.putBackPruned record (.invalidTransition record.status status)
    else
      let checkpointId :=
        if status = .failed then
          taken.latestResumableLoopCheckpoint record.scope record.turnId record.runId
        else record.checkpointId
      let closed := record.closed status failure checkpointId taken.cursorAfter
      (.ok closed.state, taken.closeRun record closed kind (failure.map category)
            (failureDetailForEvent kind failure) now
          |>.insertRecord closed.runId closed
          |>.pruneTerminalRecords)

def completeRun (inner : Inner) : Except TurnError TurnRunState × Inner :=
  inner.terminalTransition now claim .completed none .completed

def cancelRun (inner : Inner) : Except TurnError TurnRunState × Inner :=
  inner.cancelCompletionTransition now claim

def failRun (failure : SanitizedFailure) (inner : Inner) : Except TurnError TurnRunState × Inner :=
  inner.terminalTransition now claim .failed (some failure) .failed

/-! ## Loop exits -/

def completeClaimedRecord (taken : Inner) (record : RunRecord) : AppliedLoopTransition × Inner :=
  if record.status ≠ .running then
    (.rejected record (.invalidTransition record.status .completed), taken)
  else
    let closed := record.closed .completed none record.checkpointId taken.cursorAfter
    (.applied closed closed.state true, taken.closeRun record closed .completed none none now)

def cancelClaimedRecord (taken : Inner) (record : RunRecord) : AppliedLoopTransition × Inner :=
  if record.status ≠ .cancelRequested then
    (.rejected record (.invalidTransition record.status .cancelled), taken)
  else
    let closed := record.closed .cancelled none record.checkpointId taken.cursorAfter
    (.applied closed closed.state true, taken.closeRun record closed .cancelled none none now)

def blockClaimedRecord (taken : Inner) (record : RunRecord)
    (checkpointId : TurnCheckpointId) (stateRef : LoopCheckpointStateRef) (reason : BlockedReason)
    (blockedActivityId : Option CapabilityActivityId) : AppliedLoopTransition × Inner :=
  if record.status ≠ .running then
    (.rejected record (.invalidTransition record.status reason.status), taken)
  else
    let parked := record.parked reason checkpointId blockedActivityId taken.cursorAfter
    (.applied parked parked.state false,
      taken.parkRun record parked checkpointId stateRef reason.gateRef now)

def failClaimedRecord (taken : Inner) (record : RunRecord)
    (failure : SanitizedFailure) : AppliedLoopTransition × Inner :=
  if record.status ≠ .running then
    (.rejected record (.invalidTransition record.status .failed), taken)
  else
    let closed := record.closed .failed (some failure)
      (taken.latestResumableLoopCheckpoint record.scope record.turnId record.runId)
      taken.cursorAfter
    (.applied closed closed.state true,
      taken.closeRun record closed .failed (some failure.category) failure.detail now)

def cancelOrFailClaimedRecord (taken : Inner) (record : RunRecord)
    (failure : SanitizedFailure) : AppliedLoopTransition × Inner :=
  match record.status with
  | .running => taken.failClaimedRecord now record failure
  | .cancelRequested => taken.cancelClaimedRecord now record
  | _ => (.rejected record (.invalidTransition record.status .failed), taken)

def commitTransition (transition : AppliedLoopTransition) (inner : Inner) :
    Except TurnError TurnRunState × Inner :=
  match transition with
  | .applied record state pruneTerminal =>
    let committed := inner.insertRecord record.runId record
    (.ok state, if pruneTerminal then committed.pruneTerminalRecords else committed)
  | .rejected record error => (.error error, inner.insertRecord record.runId record)

/-- The loop exit applied to a record whose lease was checked. -/
def applyLoopExitMapping (taken : Inner) (record : RunRecord) :
    LoopExitMapping → AppliedLoopTransition × Inner
  | .runnerOutcome .completed => taken.completeClaimedRecord now record
  | .runnerOutcome .cancelled =>
    taken.cancelOrFailClaimedRecord now record (.fromTrustedStatic "interrupted_unexpectedly")
  | .runnerOutcome (.blocked checkpointId stateRef reason blockedActivityId) =>
    taken.blockClaimedRecord now record checkpointId stateRef reason blockedActivityId
  | .runnerOutcome (.failed failure) => taken.failClaimedRecord now record failure
  | .recoveryRequired failure => taken.cancelOrFailClaimedRecord now record failure

def applyValidatedLoopExit (mapping : LoopExitMapping) (modelUsage : Option LoopModelUsage) :
    Inner → Except TurnError TurnRunState × Inner :=
  withLease now claim (fun taken record error => commitTransition (.rejected record error) taken)
    fun taken record =>
      let result := taken.applyLoopExitMapping now (record.withUsage modelUsage) mapping
      commitTransition result.1 result.2

def recordRunnerFailure (failure : SanitizedFailure) :
    Inner → Except TurnError TurnRunState × Inner :=
  withLease now claim (fun taken record error => commitTransition (.rejected record error) taken)
    fun taken record =>
      let result := taken.cancelOrFailClaimedRecord now record failure
      commitTransition result.1 result.2

/-- A relinquished run is queued again; a run whose cancellation was requested is
cancelled instead. -/
def relinquishRun : Inner → Except TurnError TurnRunState × Inner :=
  withLease now claim putBack fun taken record =>
    match record.status with
    | .running =>
      let requeued := record.closed .queued none record.checkpointId taken.cursorAfter
      (.ok requeued.state, taken.applyStatusTransition (.between record.status .queued) requeued
          |>.nextCursor
          |>.updateActiveLock requeued now
          |>.pushEvent requeued .runnerHeartbeat none none now
          |>.insertRecord requeued.runId requeued
          |>.pushQueuedRun claim.runId)
    | .cancelRequested =>
      let closed := record.closed .cancelled none record.checkpointId taken.cursorAfter
      (.ok closed.state, taken.closeRun record closed .cancelled none none now
          |>.insertRecord closed.runId closed
          |>.pruneTerminalRecords)
    | status => taken.putBack record (.invalidTransition status .queued)

/-! ## Lease recovery -/

/-- The filter of `recover_expired_leases`. -/
def leaseExpired (request : RecoverExpiredLeasesRequest) (record : RunRecord) : Bool :=
  holdsRunningSlot record.status && request.scopeFilter.all (fun scope => scope = record.scope) &&
    record.leaseExpiresAt.any fun expiresAt => expiresAt ≤ request.now

def recoverExpiredRun (inner : Inner) (runId : TurnRunId) : Option TurnRunState × Inner :=
  match inner.records.get runId with
  | none => (none, inner)
  | some record =>
    let taken := inner.removeRecord runId
    let outcome := expiredLeaseTerminalOutcome record.status
    let checkpointId :=
      if outcome.status = .failed then
        taken.latestResumableLoopCheckpoint record.scope record.turnId runId
      else record.checkpointId
    let closed := record.closed outcome.status outcome.failure checkpointId taken.cursorAfter
    (some closed.state, taken.closeRun record closed outcome.eventKind outcome.eventDetail
          (failureDetailForEvent outcome.eventKind closed.failure) now
        |>.insertRecord runId closed)

def recoverExpiredRuns (now : TurnTimestamp) : List TurnRunId → Inner → List TurnRunState × Inner
  | [], inner => ([], inner)
  | runId :: rest, inner =>
    let step := inner.recoverExpiredRun now runId
    let others := recoverExpiredRuns now rest step.2
    (step.1.toList ++ others.1, others.2)

/-- `expired` lists the runs whose lease has expired, in the table's iteration
order. -/
def recoverExpiredLeases (expired : List TurnRunId) (inner : Inner) : List TurnRunState × Inner :=
  let recovered := recoverExpiredRuns now expired inner
  (recovered.1, recovered.2.pruneTerminalRecords)

/-- `expired` is an enumeration of the runs the recovery filter selects. -/
def EnumeratesExpired (request : RecoverExpiredLeasesRequest) (inner : Inner)
    (expired : List TurnRunId) : Prop :=
  expired.Nodup ∧
    ∀ runId, runId ∈ expired ↔ (inner.records.get runId).any (leaseExpired request) = true

end Inner

end Ironclaw.Turns
