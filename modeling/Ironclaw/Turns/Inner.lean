import Mathlib.Data.Finset.Max
import Mathlib.Data.Prod.Lex
import Ironclaw.Turns.Concurrency
import Ironclaw.Turns.Requests

/-!
# State of the in-memory turn store

`Inner` is what the store's mutex protects.  The helpers below are the private
methods of the store; each is a record update, so what it leaves alone is visible
from its definition.  Clock readings and fresh identifiers are arguments.
-/

namespace Ironclaw.Turns

open HostApi Lib

structure InMemoryTurnStateStoreLimits where
  maxEvents : Nat
  maxTerminalRecords : Nat
  maxIdempotencyRecords : Nat
  runnerLeaseTtl : Int
  maxConcurrentRunsPerUser : Option NonZeroCount
  maxConcurrentTriggerRuns : Option NonZeroCount
  maxConcurrentConversationRuns : Option NonZeroCount

def InMemoryTurnStateStoreLimits.default : InMemoryTurnStateStoreLimits where
  maxEvents := 10000
  maxTerminalRecords := 10000
  maxIdempotencyRecords := 10000
  runnerLeaseTtl := 90 * 1000000000
  maxConcurrentRunsPerUser := none
  maxConcurrentTriggerRuns := none
  maxConcurrentConversationRuns := none

structure Inner where
  cursor : Nat
  turns : Table TurnId TurnRecord
  records : Table TurnRunId RunRecord
  queuedRuns : List TurnRunId
  terminalRuns : List TurnRunId
  activeLocks : Table TurnActiveLockKey TurnActiveLockRecord
  checkpoints : List TurnCheckpointRecord
  loopCheckpoints : Table TurnCheckpointId LoopCheckpointRecord
  submitIdempotency : Table SubmitIdempotencyKey (Except TurnError SubmitTurnResponse)
  submitIdempotencyInFlight : Finset SubmitIdempotencyKey
  resumeIdempotency : Table RunIdempotencyKey (Except TurnError ResumeTurnResponse)
  retryIdempotency : Table RunIdempotencyKey (Except TurnError RetryTurnResponse)
  cancelIdempotency : Table RunIdempotencyKey (Except TurnError CancelRunResponse)
  idempotencyRecords : Table PersistedIdempotencyKey TurnIdempotencyRecord
  submitIdempotencyOrder : List SubmitIdempotencyKey
  resumeIdempotencyOrder : List RunIdempotencyKey
  retryIdempotencyOrder : List RunIdempotencyKey
  cancelIdempotencyOrder : List RunIdempotencyKey
  idempotencyRecordOrder : List PersistedIdempotencyKey
  events : List TurnLifecycleEvent
  eventRetentionFloor : EventCursor
  admissionReservations : Table TurnRunId TurnAdmissionReservationRecord
  treeReservations : Table SpawnTreeReservationKey TreeReservationState
  limits : InMemoryTurnStateStoreLimits
  concurrency : ConcurrencyLimiter

/-- Library code the store calls: date arithmetic and the syntax of model routes. -/
structure StoreEnv where
  /-- `DateTime::checked_add_signed`. -/
  checkedAddSigned : TurnTimestamp → Int → Option TurnTimestamp
  /-- `LoopModelRouteSnapshot::advisory`. -/
  advisory : String → Option LoopModelRouteSnapshot
  /-- `LoopModelRouteSnapshot::validate`. -/
  validateRoute : LoopModelRouteSnapshot → Except String Unit

namespace Inner

def withLimits (limits : InMemoryTurnStateStoreLimits) : Inner where
  cursor := 0
  turns := .empty
  records := .empty
  queuedRuns := []
  terminalRuns := []
  activeLocks := .empty
  checkpoints := []
  loopCheckpoints := .empty
  submitIdempotency := .empty
  submitIdempotencyInFlight := ∅
  resumeIdempotency := .empty
  retryIdempotency := .empty
  cancelIdempotency := .empty
  idempotencyRecords := .empty
  submitIdempotencyOrder := []
  resumeIdempotencyOrder := []
  retryIdempotencyOrder := []
  cancelIdempotencyOrder := []
  idempotencyRecordOrder := []
  events := []
  eventRetentionFloor := ⟨0⟩
  admissionReservations := .empty
  treeReservations := .empty
  limits
  concurrency := .withLimits
    ⟨limits.maxConcurrentRunsPerUser, limits.maxConcurrentTriggerRuns,
      limits.maxConcurrentConversationRuns⟩

/-! ## Cursor, events and slots -/

variable (inner : Inner)

/-- The cursor `next_cursor` hands out. -/
def cursorAfter : EventCursor := ⟨saturatingAdd inner.cursor 1⟩

/-- The state `next_cursor` leaves behind. -/
def nextCursor : Inner := { inner with cursor := saturatingAdd inner.cursor 1 }

def nextLeaseExpiry (env : StoreEnv) (inner : Inner) (now : TurnTimestamp) : TurnTimestamp :=
  (env.checkedAddSigned now inner.limits.runnerLeaseTtl).getD now

variable (record : RunRecord)

def eventFor (kind : TurnEventKind) (sanitizedReason detail : Option String)
    (now : TurnTimestamp) : TurnLifecycleEvent where
  cursor := record.eventCursor
  scope := record.scope
  occurredAt := some now
  ownerUserId := lifecycleOwnerUserId record.scope (some record.actor.userId)
  runId := record.runId
  status := record.status
  kind
  blockedGate :=
    if kind = .blocked then
      record.gateRef.bind fun gateRef =>
        (TurnBlockedGateKind.fromStatus record.status).map fun gateKind =>
          ⟨gateRef, gateKind, record.blockedActivityId, record.credentialRequirements⟩
    else none
  sanitizedReason
  retryable := if kind = .failed then some record.checkpointId.isSome else none
  detail

/-- `EventCursor::max`. -/
def cursorMax (left right : EventCursor) : EventCursor :=
  if left.value < right.value then right else left

def pushEvent (kind : TurnEventKind)
    (sanitizedReason detail : Option String) (now : TurnTimestamp) : Inner :=
  let events := inner.events ++ [eventFor record kind sanitizedReason detail now]
  let excess := events.length - inner.limits.maxEvents
  { inner with
    events := events.drop excess
    eventRetentionFloor :=
      -- `excess` is zero exactly when the log still fits.
      if excess = 0 then inner.eventRetentionFloor
      else match events[excess - 1]? with
        | some lastPruned => cursorMax inner.eventRetentionFloor lastPruned.cursor
        | none => inner.eventRetentionFloor }

def applyStatusTransition (transition : StatusTransition) (record : RunRecord) : Inner :=
  { inner with
    concurrency := match transition with
      | .enteredRunning => inner.concurrency.onEnterRunning (slotInfoFor record)
      | .leftRunning => inner.concurrency.onLeaveRunning (slotInfoFor record)
      | .unchanged => inner.concurrency }

/-! ## Queues -/

variable (runId : TurnRunId)

def pushQueuedRun : Inner :=
  { inner with queuedRuns := inner.queuedRuns ++ [runId] }

def removeQueuedRun : Inner :=
  { inner with queuedRuns := inner.queuedRuns.filter (· ≠ runId) }

/-! ## Run records -/

/-- The state after `take_record` or `records.remove`. -/
def removeRecord : Inner :=
  { inner with records := inner.records.remove runId }

def insertRecord (record : RunRecord) : Inner :=
  { inner with records := inner.records.insert runId record }

def insertTurn (turn : TurnRecord) : Inner :=
  { inner with turns := inner.turns.insert turn.turnId turn }

def isLatestRunForTurn : Bool :=
  !inner.records.anyValue fun candidate =>
    decide (candidate.turnId = record.turnId) &&
      decide (record.eventCursor.value < candidate.eventCursor.value)

/-! ## Active locks -/

def insertActiveLock (lock : TurnActiveLockRecord) : Inner :=
  { inner with activeLocks := inner.activeLocks.insert lock.key lock }

/-- Change the lock stored for the record's scope, if that run owns it. -/
def modifyOwnLock (change : TurnActiveLockRecord → TurnActiveLockRecord) : Inner :=
  { inner with
    activeLocks := inner.activeLocks.modify ⟨record.scope⟩ fun lock =>
      if lock.runId = record.runId then change lock else lock }

variable (updatedAt : TurnTimestamp)

def updatedLock (lock : TurnActiveLockRecord) : TurnActiveLockRecord :=
  { lock with
    status := record.status
    lockVersion := lock.lockVersion.incremented
    updatedAt }

def touchedLock (lock : TurnActiveLockRecord) : TurnActiveLockRecord :=
  { lock with updatedAt }

def updateActiveLock : Inner := inner.modifyOwnLock record (updatedLock record updatedAt)

def touchActiveLock : Inner := inner.modifyOwnLock record (touchedLock updatedAt)

def releaseActiveLock : Inner :=
  { inner with
    activeLocks :=
      if (inner.activeLocks.get ⟨record.scope⟩).any fun lock => lock.runId = record.runId then
        inner.activeLocks.remove ⟨record.scope⟩
      else inner.activeLocks }

def threadBusy (lockKey : TurnActiveLockKey) : Option ThreadBusy := do
  let activeLock ← inner.activeLocks.get lockKey
  let record ← inner.records.get activeLock.runId
  if record.status.keepsActiveLock then
    some ⟨activeLock.runId, record.status, record.eventCursor⟩
  else none

/-! ## Checkpoints -/

def recordCheckpoint (checkpointId : TurnCheckpointId)
    (stateRef : LoopCheckpointStateRef) (gateRef : GateRef) (createdAt : TurnTimestamp) : Inner :=
  { inner with
    checkpoints := inner.checkpoints ++
      [{ checkpointId
         runId := record.runId
         scope := some record.scope
         sequence := (inner.checkpoints.filter fun checkpoint =>
           checkpoint.runId = record.runId).length + 1
         status := record.status
         gateRef
         kind := .beforeBlock
         stateRef
         createdAt }] }

variable (scope : TurnScope) (turnId : TurnId)

/-- The filter shared by both checkpoint searches. -/
def isResumableCheckpointOf (runId : TurnRunId) (checkpoint : LoopCheckpointRecord) : Bool :=
  decide (checkpoint.scope = scope) && decide (checkpoint.turnId = turnId) &&
    decide (checkpoint.runId = runId) && checkpoint.kind.resumable

def retryableLoopCheckpoint (checkpointId : TurnCheckpointId) : Option LoopCheckpointRecord :=
  (inner.loopCheckpoints.get checkpointId).filter
    (isResumableCheckpointOf record.scope record.turnId record.runId)

/-- Sort keys of the resumable checkpoints: creation time, then identifier. -/
def resumableCheckpointKeys (runId : TurnRunId) : Finset (Int ×ₗ Nat) :=
  (inner.loopCheckpoints.keys.filter fun key =>
      (inner.loopCheckpoints.get key).any (isResumableCheckpointOf scope turnId runId)).image
    fun key => toLex (((inner.loopCheckpoints.get key).map
      LoopCheckpointRecord.createdAt).getD 0, key.uuid)

def latestResumableLoopCheckpoint (runId : TurnRunId) : Option TurnCheckpointId :=
  match (inner.resumableCheckpointKeys scope turnId runId).max with
  | none => none
  | some latest => some ⟨(ofLex latest).2⟩

def linkLoopCheckpointForRetry (source : LoopCheckpointRecord)
    (retryRunId : TurnRunId) (createdAt : TurnTimestamp) (checkpointId : TurnCheckpointId) :
    Inner :=
  { inner with
    loopCheckpoints := inner.loopCheckpoints.insert checkpointId
      { source with
        checkpointId
        runId := retryRunId
        createdAt } }

/-! ## Admission -/

def activeAdmissionCount (bucket : TurnAdmissionBucket) : Nat :=
  inner.admissionReservations.countValues fun reservation =>
    !reservation.released && reservation.buckets.contains bucket

/-- The limit check `reserve_admission` makes bucket by bucket. -/
def checkAdmissionBuckets (inner : Inner)
    (limitFor : TurnAdmissionBucket → Except Unit TurnAdmissionLimit) :
    List TurnAdmissionBucket → Except AdmissionRejection Unit
  | [] => .ok ()
  | bucket :: rest =>
    match limitFor bucket with
    | .error _ => .error (.new .unavailable)
    | .ok limit =>
      match limit.maxActive with
      | none => inner.checkAdmissionBuckets limitFor rest
      | some maxActive =>
        if maxActive ≤ inner.activeAdmissionCount bucket then
          .error ((AdmissionRejection.new .tenantLimit).withCapacityDenial
            ⟨bucket.axisKind, bucket.bucketKind, bucket.admissionClass, maxActive,
              inner.activeAdmissionCount bucket, limit.retryAfterMs⟩)
        else inner.checkAdmissionBuckets limitFor rest

def insertAdmission (admissionClass : TurnAdmissionClass)
    (buckets : List TurnAdmissionBucket) : Inner :=
  { inner with
    admissionReservations :=
      inner.admissionReservations.insert runId ⟨runId, admissionClass, buckets, false⟩ }

def reserveAdmission (admissionClass : TurnAdmissionClass) (scope : TurnScope) (actor : TurnActor)
    (limitFor : TurnAdmissionBucket → Except Unit TurnAdmissionLimit) :
    Except AdmissionRejection Inner :=
  let buckets := admissionBuckets scope actor admissionClass
  match inner.checkAdmissionBuckets limitFor buckets with
  | .error rejection => .error rejection
  | .ok () => .ok (inner.insertAdmission runId admissionClass buckets)

def releaseAdmission : Inner :=
  { inner with
    admissionReservations := inner.admissionReservations.modify runId fun reservation =>
      { reservation with released := true } }

/-! ## Terminal runs -/

def markTerminal : Inner :=
  { inner.releaseAdmission runId with terminalRuns := inner.terminalRuns ++ [runId] }

/-- Whether pruning may drop the run: it has ended and is not the root of a tree
that still holds a reservation. -/
def prunable : Bool :=
  ((inner.records.get runId).any fun record => record.status.isTerminal) &&
    decide (∀ key ∈ inner.treeReservations.keys, key.rootRunId ≠ runId)

/-- One round of the pruning loop, after the identifier was popped. -/
def pruneTerminalRecord : Inner :=
  if inner.prunable runId then
    let records := inner.records.remove runId
    { inner with
      records
      turns := match inner.records.get runId with
        | none => inner.turns
        | some record =>
          if records.anyValue fun other => other.turnId = record.turnId then inner.turns
          else inner.turns.remove record.turnId
      admissionReservations := inner.admissionReservations.remove runId }
  else inner

/-- The loop of `prune_terminal_records` over the queue still to be looked at. -/
def pruneTerminalQueue : List TurnRunId → Inner → Inner
  | [], inner => inner
  | runId :: rest, inner =>
    if inner.limits.maxTerminalRecords < (runId :: rest).length then
      pruneTerminalQueue rest
        (pruneTerminalRecord { inner with terminalRuns := rest } runId)
    else inner

def pruneTerminalRecords : Inner := pruneTerminalQueue inner.terminalRuns inner

theorem pruneTerminalRecords_keeps {motive : Inner → Prop}
    (kept : ∀ inner rest runId, motive inner →
      motive (pruneTerminalRecord { inner with terminalRuns := rest } runId))
    {inner : Inner} (holds : motive inner) : motive inner.pruneTerminalRecords := by
  suffices all : ∀ queue, motive (pruneTerminalQueue queue inner) from all _
  intro queue
  induction queue generalizing inner with
  | nil => exact holds
  | cons runId rest ih =>
    unfold pruneTerminalQueue
    split
    · exact ih (kept inner rest runId holds)
    · exact holds

def withRuns (records : Table TurnRunId RunRecord) (turns : Table TurnId TurnRecord)
    (terminalRuns : List TurnRunId)
    (admission : Table TurnRunId TurnAdmissionReservationRecord) : Inner :=
  { inner with
    records
    turns
    terminalRuns
    admissionReservations := admission }

theorem pruneTerminalRecords_eq : ∃ records turns terminalRuns admission,
    inner.pruneTerminalRecords = inner.withRuns records turns terminalRuns admission := by
  refine pruneTerminalRecords_keeps (motive := fun after => ∃ records turns terminalRuns admission,
    after = inner.withRuns records turns terminalRuns admission) ?_ ⟨_, _, _, _, rfl⟩
  rintro _ _ _ ⟨_, _, _, _, rfl⟩
  unfold pruneTerminalRecord
  split <;> exact ⟨_, _, _, _, rfl⟩

end Inner

end Ironclaw.Turns
