import Ironclaw.Lib.Listing
import Ironclaw.Turns.Idempotency

/-!
# Snapshots of the turn store

`persistence_snapshot` writes the store out as sorted lists of rows, and
`from_persistence_snapshot` builds a store from them.  The rows of a hash map come in
an order the code does not fix, so the orders are arguments.
-/

namespace Ironclaw.Turns

open HostApi Lib TurnIdempotencyRecord Table

/-! ## Rows -/

/-- The row of a run.  The actor is not in it: it is read back from the turn. -/
structure TurnRunRecord where
  runId : TurnRunId
  turnId : TurnId
  scope : TurnScope
  acceptedMessageRef : AcceptedMessageRef
  sourceBindingRef : SourceBindingRef
  replyTargetBindingRef : ReplyTargetBindingRef
  status : TurnStatus
  profile : TurnRunProfile
  resolvedModelRoute : Option LoopModelRouteSnapshot
  modelUsage : Option LoopModelUsage
  checkpointId : Option TurnCheckpointId
  gateRef : Option GateRef
  blockedActivityId : Option CapabilityActivityId
  credentialRequirements : List RuntimeCredentialAuthRequirement
  failure : Option SanitizedFailure
  eventCursor : EventCursor
  runnerId : Option TurnRunnerId
  leaseToken : Option TurnLeaseToken
  leaseExpiresAt : Option TurnTimestamp
  lastHeartbeatAt : Option TurnTimestamp
  claimCount : Nat
  receivedAt : TurnTimestamp
  parentRunId : Option TurnRunId
  subagentDepth : Nat
  spawnTreeRootRunId : Option TurnRunId
  productContext : Option ProductTurnContext
  resumeDisposition : Option GateResumeDisposition

def RunRecord.persistenceRecord (record : RunRecord) : TurnRunRecord where
  runId := record.runId
  turnId := record.turnId
  scope := record.scope
  acceptedMessageRef := record.acceptedMessageRef
  sourceBindingRef := record.sourceBindingRef
  replyTargetBindingRef := record.replyTargetBindingRef
  status := record.status
  profile := record.profile
  resolvedModelRoute := record.resolvedModelRoute
  modelUsage := record.modelUsage
  checkpointId := record.checkpointId
  gateRef := record.gateRef
  blockedActivityId := record.blockedActivityId
  credentialRequirements := record.credentialRequirements
  failure := record.failure
  eventCursor := record.eventCursor
  runnerId := record.runnerId
  leaseToken := record.leaseToken
  leaseExpiresAt := record.leaseExpiresAt
  lastHeartbeatAt := record.lastHeartbeatAt
  claimCount := record.claimCount
  receivedAt := record.receivedAt
  parentRunId := record.parentRunId
  subagentDepth := record.subagentDepth
  spawnTreeRootRunId := record.spawnTreeRootRunId
  productContext := record.productContext
  resumeDisposition := record.resumeDisposition

/-- The run of a row, with the actor its turn gives it. -/
def TurnRunRecord.load (run : TurnRunRecord) (actor : TurnActor) : RunRecord where
  scope := run.scope
  actor
  turnId := run.turnId
  runId := run.runId
  status := run.status
  profile := run.profile
  resolvedModelRoute := run.resolvedModelRoute
  modelUsage := run.modelUsage
  acceptedMessageRef := run.acceptedMessageRef
  sourceBindingRef := run.sourceBindingRef
  replyTargetBindingRef := run.replyTargetBindingRef
  checkpointId := run.checkpointId
  gateRef := run.gateRef
  blockedActivityId := run.blockedActivityId
  credentialRequirements := run.credentialRequirements
  failure := run.failure
  eventCursor := run.eventCursor
  runnerId := run.runnerId
  leaseToken := run.leaseToken
  leaseExpiresAt := run.leaseExpiresAt
  lastHeartbeatAt := run.lastHeartbeatAt
  claimCount := run.claimCount
  receivedAt := run.receivedAt
  parentRunId := run.parentRunId
  subagentDepth := run.subagentDepth
  spawnTreeRootRunId := run.spawnTreeRootRunId
  productContext := run.productContext
  resumeDisposition := run.resumeDisposition

structure TurnPersistenceSnapshot where
  turns : List TurnRecord
  runs : List TurnRunRecord
  activeLocks : List TurnActiveLockRecord
  checkpoints : List TurnCheckpointRecord
  loopCheckpoints : List LoopCheckpointRecord
  idempotencyRecords : List TurnIdempotencyRecord
  events : List TurnLifecycleEvent
  eventRetentionFloor : EventCursor
  admissionReservations : List TurnAdmissionReservationRecord
  spawnTreeReservations : List SpawnTreeReservation

/-! ## Writing -/

/-- The orders in which the hash maps are walked while a store is written out, and the
order in which the loaded run table is walked. -/
structure IterationOrder where
  turns : List TurnId
  records : List TurnRunId
  activeLocks : List TurnActiveLockKey
  loopCheckpoints : List TurnCheckpointId
  idempotencyRecords : List PersistedIdempotencyKey
  admissionReservations : List TurnRunId
  treeReservations : List SpawnTreeReservationKey
  loadedRecords : List TurnRunId

@[mk_iff]
structure IterationOrder.Walks (order : IterationOrder) (inner : Inner) : Prop where
  turns : inner.turns.IteratedBy order.turns
  records : inner.records.IteratedBy order.records
  activeLocks : inner.activeLocks.IteratedBy order.activeLocks
  loopCheckpoints : inner.loopCheckpoints.IteratedBy order.loopCheckpoints
  idempotencyRecords : inner.idempotencyRecords.IteratedBy order.idempotencyRecords
  admissionReservations : inner.admissionReservations.IteratedBy order.admissionReservations
  treeReservations : inner.treeReservations.IteratedBy order.treeReservations
  loadedRecords : inner.records.IteratedBy order.loadedRecords

instance (order : IterationOrder) (inner : Inner) : Decidable (order.Walks inner) :=
  decidable_of_iff' _ (IterationOrder.walks_iff order inner)

namespace Inner

/-- The row of a spawn tree; a tree whose root has no record is not written. -/
def spawnTreeReservation (inner : Inner) (key : SpawnTreeReservationKey) :
    Option SpawnTreeReservation := do
  let state ← inner.treeReservations.get key
  let root ← inner.records.get key.rootRunId
  some ⟨root.scope, key.rootRunId, state.count, state.releasedChildren⟩

def persistenceSnapshot (inner : Inner) (order : IterationOrder) : TurnPersistenceSnapshot where
  turns := sortByKey TurnRecord.createdAt (inner.turns.valuesIn order.turns)
  runs := sortByKey (fun run => run.eventCursor.value)
    ((inner.records.valuesIn order.records).map RunRecord.persistenceRecord)
  activeLocks := sortByKey TurnActiveLockRecord.acquiredAt
    (inner.activeLocks.valuesIn order.activeLocks)
  checkpoints := sortByKey
    (fun checkpoint => toLex (checkpoint.createdAt, checkpoint.sequence)) inner.checkpoints
  loopCheckpoints := sortByKey
    (fun checkpoint => toLex (checkpoint.createdAt, checkpoint.checkpointId.uuid))
    (inner.loopCheckpoints.valuesIn order.loopCheckpoints)
  idempotencyRecords := sortByKey createdAt
    (inner.idempotencyRecords.valuesIn order.idempotencyRecords)
  events := inner.events
  eventRetentionFloor := inner.eventRetentionFloor
  admissionReservations := sortByKey (fun reservation => reservation.runId.uuid)
    (inner.admissionReservations.valuesIn order.admissionReservations)
  spawnTreeReservations := sortByKey (fun reservation => reservation.rootRunId.uuid)
    (order.treeReservations.filterMap inner.spawnTreeReservation)

end Inner

/-- `persist_seq.fetch_add(1)` on an `AtomicU64`: the counter starts again after its last number. -/
def nextPersistSeq (seq : Nat) : Nat := (seq + 1) % 2 ^ 64

/-! ## Replaying remembered outcomes -/

def TurnIdempotencyErrorReplay.toError (replay : TurnIdempotencyErrorReplay) : TurnError :=
  match replay.category with
  | .scopeNotFound => .scopeNotFound
  | .unauthorized => .unauthorized
  | .invalidRequest => .invalidRequest "replayed invalid request"
  | .unavailable => .unavailable "replayed unavailable"
  | .conflict => .conflict "replayed conflict"
  | .capacityExceeded =>
    .capacityExceeded (replay.capacityResource.getD .replayed) (replay.capacityCap.getD 0)
  | .threadBusy => .conflict "replayed malformed thread-busy idempotency record"
  | .admissionRejected => .conflict "replayed malformed admission idempotency record"

namespace TurnIdempotencyRecord

variable (record : TurnIdempotencyRecord)

def replaySubmit : Option (Except TurnError SubmitTurnResponse) :=
  if record.operation ≠ .submit then none
  else match record.replay with
    | .submitAccepted response => some (.ok response)
    | .submitThreadBusy _ => none
    | .submitAdmissionRejected rejection => some (.error (.admissionRejected rejection))
    | .error replay => some (.error replay.toError)
    | _ => none

def replayResume : Option (Except TurnError ResumeTurnResponse) :=
  if record.operation ≠ .resume then none
  else match record.replay with
    | .resumeSucceeded response => some (.ok response)
    | .error replay => some (.error replay.toError)
    | _ => none

def replayCancel : Option (Except TurnError CancelRunResponse) :=
  if record.operation ≠ .cancel then none
  else match record.replay with
    | .cancelRecorded response => some (.ok response)
    | .error replay => some (.error replay.toError)
    | _ => none

def replayRetry : Option (Except TurnError RetryTurnResponse) :=
  if record.operation ≠ .retry then none
  else match record.replay with
    | .retrySucceeded response => some (.ok response)
    | .retryThreadBusy _ => none
    | .error replay => some (.error replay.toError)
    | _ => none

end TurnIdempotencyRecord

/-! ## Loading -/

structure LoadedRuns where
  cursor : Nat
  records : Table TurnRunId RunRecord
  queuedRuns : List TurnRunId
  terminalRuns : List TurnRunId

namespace LoadedRuns

def empty : LoadedRuns := ⟨0, .empty, [], []⟩

/-- A queued run whose lock says otherwise is not queued again. -/
def queueable (activeLocks : Table TurnActiveLockKey TurnActiveLockRecord) (run : RunRecord) :
    Bool :=
  decide (run.status = .queued) && !activeLocks.anyValue fun lock =>
      decide (lock.runId = run.runId) && decide (lock.status ≠ .queued)

def add (activeLocks : Table TurnActiveLockKey TurnActiveLockRecord) (loaded : LoadedRuns)
    (run : RunRecord) : LoadedRuns where
  cursor := max loaded.cursor run.eventCursor.value
  records := loaded.records.insert run.runId run
  queuedRuns :=
    if queueable activeLocks run then loaded.queuedRuns ++ [run.runId] else loaded.queuedRuns
  terminalRuns :=
    if run.status.isTerminal then loaded.terminalRuns ++ [run.runId] else loaded.terminalRuns

/-- The loop over the run rows; a row without its turn ends the load. -/
def load (turns : Table TurnId TurnRecord)
    (activeLocks : Table TurnActiveLockKey TurnActiveLockRecord) :
    List TurnRunRecord → LoadedRuns → Except TurnError LoadedRuns
  | [], loaded => .ok loaded
  | run :: rest, loaded =>
    match turns.get run.turnId with
    | none => .error (.unavailable "turn run references missing turn record")
    | some turn => load turns activeLocks rest (loaded.add activeLocks (run.load turn.actor))

end LoadedRuns

/-- The replay tables, their orders, and the rows they are written as. -/
structure ReplayMemory where
  submitIdempotency : Table SubmitIdempotencyKey (Except TurnError SubmitTurnResponse)
  resumeIdempotency : Table RunIdempotencyKey (Except TurnError ResumeTurnResponse)
  retryIdempotency : Table RunIdempotencyKey (Except TurnError RetryTurnResponse)
  cancelIdempotency : Table RunIdempotencyKey (Except TurnError CancelRunResponse)
  idempotencyRecords : Table PersistedIdempotencyKey TurnIdempotencyRecord
  submitIdempotencyOrder : List SubmitIdempotencyKey
  resumeIdempotencyOrder : List RunIdempotencyKey
  retryIdempotencyOrder : List RunIdempotencyKey
  cancelIdempotencyOrder : List RunIdempotencyKey
  idempotencyRecordOrder : List PersistedIdempotencyKey

def Inner.memory (inner : Inner) : ReplayMemory where
  submitIdempotency := inner.submitIdempotency
  resumeIdempotency := inner.resumeIdempotency
  retryIdempotency := inner.retryIdempotency
  cancelIdempotency := inner.cancelIdempotency
  idempotencyRecords := inner.idempotencyRecords
  submitIdempotencyOrder := inner.submitIdempotencyOrder
  resumeIdempotencyOrder := inner.resumeIdempotencyOrder
  retryIdempotencyOrder := inner.retryIdempotencyOrder
  cancelIdempotencyOrder := inner.cancelIdempotencyOrder
  idempotencyRecordOrder := inner.idempotencyRecordOrder

namespace ReplayMemory

def empty : ReplayMemory := ⟨.empty, .empty, .empty, .empty, .empty, [], [], [], [], []⟩

variable (memory : ReplayMemory) (record : TurnIdempotencyRecord)

def addSubmit : ReplayMemory :=
  match record.replaySubmit with
  | none => memory
  | some replay =>
    { memory with
      submitIdempotency := memory.submitIdempotency.insert ⟨record.scope, record.key⟩ replay
      submitIdempotencyOrder := memory.submitIdempotencyOrder ++ [⟨record.scope, record.key⟩] }

def addResume : ReplayMemory :=
  match record.runId, record.replayResume with
  | some runId, some replay =>
    { memory with
      resumeIdempotency := memory.resumeIdempotency.insert ⟨record.scope, runId, record.key⟩ replay
      resumeIdempotencyOrder :=
        memory.resumeIdempotencyOrder ++ [⟨record.scope, runId, record.key⟩] }
  | _, _ => memory

def addRetry : ReplayMemory :=
  match record.runId, record.replayRetry with
  | some runId, some replay =>
    { memory with
      retryIdempotency := memory.retryIdempotency.insert ⟨record.scope, runId, record.key⟩ replay
      retryIdempotencyOrder := memory.retryIdempotencyOrder ++ [⟨record.scope, runId, record.key⟩] }
  | _, _ => memory

def addCancel : ReplayMemory :=
  match record.runId, record.replayCancel with
  | some runId, some replay =>
    { memory with
      cancelIdempotency := memory.cancelIdempotency.insert ⟨record.scope, runId, record.key⟩ replay
      cancelIdempotencyOrder :=
        memory.cancelIdempotencyOrder ++ [⟨record.scope, runId, record.key⟩] }
  | _, _ => memory

def add : ReplayMemory :=
  let kept := { memory with
    idempotencyRecordOrder := memory.idempotencyRecordOrder ++ [persistedKeyForRecord record]
    idempotencyRecords := memory.idempotencyRecords.insert (persistedKeyForRecord record) record }
  match record.operation with
  | .submit => kept.addSubmit record
  | .resume => kept.addResume record
  | .retry => kept.addRetry record
  | .cancel => kept.addCancel record

def load (records : List TurnIdempotencyRecord) : ReplayMemory :=
  (sortByKey createdAt records).foldl add empty

end ReplayMemory

/-- The reservation a live run must have. -/
def RunRecord.canonicalReservation (record : RunRecord) : TurnAdmissionReservationRecord :=
  ⟨record.runId, record.profile.admissionClass,
    admissionBuckets record.scope record.actor record.profile.admissionClass, false⟩

section

variable (records : Table TurnRunId RunRecord)

/-- A reservation of a run that is not there is dropped; one of an ended run counts as
released. -/
def loadReservation (reservations : Table TurnRunId TurnAdmissionReservationRecord)
    (reservation : TurnAdmissionReservationRecord) :
    Table TurnRunId TurnAdmissionReservationRecord :=
  match records.get reservation.runId with
  | none => reservations
  | some record =>
    reservations.insert reservation.runId
      { reservation with released := record.status.isTerminal || reservation.released }

/-- A live run gets its reservation back if it is missing or differs. -/
def restoreReservation (reservations : Table TurnRunId TurnAdmissionReservationRecord)
    (record : RunRecord) : Table TurnRunId TurnAdmissionReservationRecord :=
  if record.status.keepsActiveLock then
    let canonical := record.canonicalReservation
    let needsCanonicalReservation := match reservations.get record.runId with
      | none => true
      | some reservation =>
        reservation.released || decide (reservation.admissionClass ≠ canonical.admissionClass) ||
          decide (reservation.buckets ≠ canonical.buckets)
    if needsCanonicalReservation then reservations.insert record.runId canonical
    else reservations
  else reservations

def loadReservations (loadedRecords : List TurnRunId) (rows : List TurnAdmissionReservationRecord) :
    Table TurnRunId TurnAdmissionReservationRecord :=
  (records.valuesIn loadedRecords).foldl restoreReservation
    (rows.foldl (loadReservation records) .empty)

end

def loadTree (trees : Table SpawnTreeReservationKey TreeReservationState)
    (reservation : SpawnTreeReservation) : Table SpawnTreeReservationKey TreeReservationState :=
  trees.insert (.new reservation.scope reservation.rootRunId)
    ⟨reservation.descendantCount, reservation.releasedChildren⟩

namespace Inner

def fromPersistenceSnapshot (snapshot : TurnPersistenceSnapshot)
    (limits : InMemoryTurnStateStoreLimits) (loadedRecords : List TurnRunId) :
    Except TurnError Inner :=
  let turns := collect TurnRecord.turnId snapshot.turns
  let activeLocks := collect TurnActiveLockRecord.key snapshot.activeLocks
  match LoadedRuns.load turns activeLocks snapshot.runs .empty with
  | .error error => .error error
  | .ok runs =>
    let memory := ReplayMemory.load snapshot.idempotencyRecords
    let lastEvent := (snapshot.events.map fun event => event.cursor.value).foldl max 0
    .ok
      { cursor := max (max runs.cursor lastEvent) snapshot.eventRetentionFloor.value
        turns
        records := runs.records
        queuedRuns := runs.queuedRuns
        terminalRuns := runs.terminalRuns
        activeLocks
        checkpoints := snapshot.checkpoints
        loopCheckpoints := collect LoopCheckpointRecord.checkpointId snapshot.loopCheckpoints
        submitIdempotency := memory.submitIdempotency
        submitIdempotencyInFlight := ∅
        resumeIdempotency := memory.resumeIdempotency
        retryIdempotency := memory.retryIdempotency
        cancelIdempotency := memory.cancelIdempotency
        idempotencyRecords := memory.idempotencyRecords
        submitIdempotencyOrder := memory.submitIdempotencyOrder
        resumeIdempotencyOrder := memory.resumeIdempotencyOrder
        retryIdempotencyOrder := memory.retryIdempotencyOrder
        cancelIdempotencyOrder := memory.cancelIdempotencyOrder
        idempotencyRecordOrder := memory.idempotencyRecordOrder
        events := snapshot.events
        eventRetentionFloor := snapshot.eventRetentionFloor
        admissionReservations :=
          loadReservations runs.records loadedRecords snapshot.admissionReservations
        treeReservations := snapshot.spawnTreeReservations.foldl loadTree .empty
        limits
        concurrency := .rebuildFrom
          ⟨limits.maxConcurrentRunsPerUser, limits.maxConcurrentTriggerRuns,
            limits.maxConcurrentConversationRuns⟩
          (((runs.records.valuesIn loadedRecords).filter fun record =>
            holdsRunningSlot record.status).map slotInfoFor) }

/-- The store a restart with the given limits builds from the snapshot of this one. -/
def reload (inner : Inner) (limits : InMemoryTurnStateStoreLimits) (order : IterationOrder) :
    Except TurnError Inner :=
  fromPersistenceSnapshot (inner.persistenceSnapshot order) limits order.loadedRecords

end Inner

end Ironclaw.Turns
