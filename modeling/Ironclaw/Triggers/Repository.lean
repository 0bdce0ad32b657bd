import Mathlib.Data.Finset.Sort
import Ironclaw.Lib.Table
import Ironclaw.Triggers.Schedule
import Ironclaw.Turns.Status

/-!
# The trigger repository

The in-memory repository keeps the triggers and the history of their runs.  A fire of a
trigger is claimed for a slot, answered as accepted or failed, and cleared when its run
has ended.
-/

namespace Ironclaw.Triggers

open HostApi Lib Turns

/-! ## Records -/

structure TriggerId where
  ulid : Nat
  deriving DecidableEq

structure TriggerDeliveryTargetId where
  value : String

inductive TriggerSourceKind where
  | schedule

inductive TriggerState where
  | scheduled
  | paused
  | completed
  deriving DecidableEq

inductive TriggerRunStatus where
  | ok
  | error

inductive TriggerRunHistoryStatus where
  | running
  | ok
  | error

def maxAutomationNameBytes : Nat := 256

def maxTriggerPromptBytes : Nat := 32 * 1024

def maxTriggerRunHistoryRetained : Nat := 500

inductive AutomationNameError where
  | empty
  | tooLong

structure AutomationName where
  value : Text
  nonempty : value ≠ []
  short : byteLength value ≤ maxAutomationNameBytes

def AutomationName.new (raw : Text) : Except AutomationNameError AutomationName :=
  if empty : trim raw = [] then .error .empty
  else if long : maxAutomationNameBytes < byteLength (trim raw) then .error .tooLong
  else .ok ⟨trim raw, empty, Nat.not_lt.mp long⟩

structure TriggerRecord where
  triggerId : TriggerId
  tenantId : TenantId
  creatorUserId : UserId
  agentId : Option AgentId
  projectId : Option ProjectId
  name : Text
  source : TriggerSourceKind
  schedule : TriggerSchedule
  prompt : Text
  deliveryTarget : Option TriggerDeliveryTargetId
  state : TriggerState
  nextRunAt : Timestamp
  lastRunAt : Option Timestamp
  lastFiredSlot : Option Timestamp
  lastStatus : Option TriggerRunStatus
  activeFireSlot : Option Timestamp
  activeRunRef : Option TurnRunId
  createdAt : Timestamp

structure TriggerRunRecord where
  tenantId : TenantId
  triggerId : TriggerId
  fireSlot : Timestamp
  runId : Option TurnRunId
  threadId : Option ThreadId
  status : TriggerRunHistoryStatus
  submittedAt : Timestamp
  completedAt : Option Timestamp

structure TriggerRepositoryKey where
  tenantId : TenantId
  triggerId : TriggerId
  deriving DecidableEq

structure TriggerRunRepositoryKey where
  tenantId : TenantId
  triggerId : TriggerId
  fireSlot : Timestamp
  deriving DecidableEq

def TriggerRepositoryKey.run (key : TriggerRepositoryKey) (fireSlot : Timestamp) :
    TriggerRunRepositoryKey :=
  ⟨key.tenantId, key.triggerId, fireSlot⟩

def TriggerRunRecord.running (key : TriggerRunRepositoryKey) (runId : Option TurnRunId)
    (submittedAt : Timestamp) : TriggerRunRecord where
  tenantId := key.tenantId
  triggerId := key.triggerId
  fireSlot := key.fireSlot
  runId
  threadId := none
  status := .running
  submittedAt
  completedAt := none

def triggerNameError : AutomationNameError → TriggerError
  | .empty => .invalidRecord .nameEmpty "trigger name must not be empty"
  | .tooLong => .invalidRecord .nameTooLong
      ("trigger name must be at most " ++ toString maxAutomationNameBytes ++ " bytes")

def validateTriggerName (name : Text) : Except TriggerError Unit :=
  match AutomationName.new name with
  | .ok _ => .ok ()
  | .error error => .error (triggerNameError error)

namespace TriggerRecord

variable (record : TriggerRecord)

def key : TriggerRepositoryKey := ⟨record.tenantId, record.triggerId⟩

def validate (library : ScheduleLibrary) (clock : Timestamp) (record : TriggerRecord) :
    Except TriggerError Unit :=
  match validateTriggerName record.name with
  | .error error => .error error
  | .ok () =>
    if (trim record.prompt).isEmpty then
      .error (.invalidRecord .promptEmpty "trigger prompt must not be empty")
    else if maxTriggerPromptBytes < byteLength record.prompt then
      .error (.invalidRecord .promptTooLong
        ("trigger prompt must be at most " ++ toString maxTriggerPromptBytes ++ " bytes"))
    else if record.activeRunRef.isSome && record.activeFireSlot.isNone then
      .error (.invalidRecord .other "active_run_ref requires active_fire_slot")
    else record.schedule.validate library clock

def isDueAt (now : Timestamp) : Bool :=
  decide (record.state = .scheduled) && decide (record.nextRunAt ≤ now)

def hasActiveFire : Bool := record.activeFireSlot.isSome || record.activeRunRef.isSome

end TriggerRecord

/-! ## Requests -/

/-- The trigger and the caller's scope a user-facing call names. -/
structure ScopedTrigger where
  tenantId : TenantId
  creatorUserId : UserId
  agentId : Option AgentId
  projectId : Option ProjectId
  triggerId : TriggerId

def ScopedTrigger.key (target : ScopedTrigger) : TriggerRepositoryKey :=
  ⟨target.tenantId, target.triggerId⟩

def ScopedTrigger.Matches (target : ScopedTrigger) (record : TriggerRecord) : Prop :=
  record.creatorUserId = target.creatorUserId ∧ record.agentId = target.agentId ∧
    record.projectId = target.projectId

instance (target : ScopedTrigger) (record : TriggerRecord) : Decidable (target.Matches record) :=
  inferInstanceAs (Decidable (_ ∧ _ ∧ _))

/-- The claimed fire a result is about. -/
structure FireRef where
  tenantId : TenantId
  triggerId : TriggerId
  fireSlot : Timestamp

def FireRef.key (fire : FireRef) : TriggerRepositoryKey := ⟨fire.tenantId, fire.triggerId⟩

structure ClaimDueFireRequest extends FireRef where
  now : Timestamp

inductive ClaimDueFireOutcome where
  | claimed (record : TriggerRecord) (fireSlot : Timestamp)
  | notFound
  | notDue (record : TriggerRecord)
  | alreadyActive (activeFireSlot : Option Timestamp) (activeRunRef : Option TurnRunId)

structure FireAcceptedRequest extends FireRef where
  runId : TurnRunId
  threadId : ThreadId
  submittedAt : Timestamp

structure FireReplayedRequest extends FireRef where
  originalRunId : TurnRunId
  threadId : Option ThreadId
  replayedAt : Timestamp

structure FireRetryableFailedRequest extends FireRef where

structure FirePermanentFailedRequest extends FireRef where
  nextRunAt : Timestamp

structure FireTerminalFailedRequest extends FireRef where

structure ClearActiveFireRequest extends FireRef where
  runId : TurnRunId
  status : TriggerRunHistoryStatus

/-! ## The state -/

structure RepositoryState where
  records : Table TriggerRepositoryKey TriggerRecord
  runs : Table TriggerRunRepositoryKey TriggerRunRecord

abbrev TriggerAnswer := Except TriggerError (Option TriggerRecord)

def rejectNonFutureNextRunAt (fireSlot nextRunAt : Timestamp) : Except TriggerError Unit :=
  if fireSlot < nextRunAt then .ok ()
  else .error (.invalidRecord .other "fire result next_run_at must be after the claimed fire slot")

def rejectRunRefRewrite (activeRunRef incomingRunRef : TurnRunId) : Except TriggerError Unit :=
  if activeRunRef = incomingRunRef then .ok ()
  else .error (.invalidRecord .other "fire result must not rewrite an existing active_run_ref")

def rejectFailedResultAfterActiveRun (activeRunRef : Option TurnRunId) : Except TriggerError Unit :=
  if activeRunRef.isNone then .ok ()
  else .error (.invalidRecord .other
    "fire failure result must not clear an accepted active_run_ref")

def validateUserSettableTriggerState : TriggerState → Except TriggerError Unit
  | .scheduled | .paused => .ok ()
  | .completed => .error (.invalidRecord .other
      "completed is a terminal trigger state and cannot be set directly")

namespace RepositoryState

def empty : RepositoryState := ⟨.empty, .empty⟩

/-! ## Run history -/

variable (key : TriggerRepositoryKey)

/-- `prune_run_history_locked`: the latest slots of a trigger are kept. -/
def pruneRunHistory (state : RepositoryState) : RepositoryState :=
  let slots := (state.runs.keys.filter fun run =>
    run.tenantId = key.tenantId ∧ run.triggerId = key.triggerId).image
      TriggerRunRepositoryKey.fireSlot
  let dropped := (slots.sort (· ≥ ·)).drop maxTriggerRunHistoryRetained
  { state with
    runs := state.runs.retain fun run =>
      !(decide (run.tenantId = key.tenantId ∧ run.triggerId = key.triggerId) &&
        decide (run.fireSlot ∈ dropped)) }

variable (fireSlot : Timestamp)

/-- A row for an accepted fire; a row that is completed stays, and a known thread is
not forgotten. -/
def upsertRunningRunHistory
    (runId : TurnRunId) (threadId : Option ThreadId) (submittedAt : Timestamp)
    (state : RepositoryState) : RepositoryState :=
  let existing := state.runs.get (key.run fireSlot)
  if existing.any fun run => run.completedAt.isSome then state
  else
    let run := { TriggerRunRecord.running (key.run fireSlot) (some runId) submittedAt with
      threadId := threadId.or (existing.bind TriggerRunRecord.threadId) }
    ({ state with runs := state.runs.insert (key.run fireSlot) run }).pruneRunHistory key

/-- Complete the row of a fire, adding it where it is missing.  `named` is what becomes of
the run id of a row that exists. -/
def completeRun (named : Option TurnRunId → Option TurnRunId) (status : TriggerRunHistoryStatus)
    (completedAt : Timestamp) (state : RepositoryState) : RepositoryState :=
  let existing := (state.runs.get (key.run fireSlot)).getD
    (.running (key.run fireSlot) none completedAt)
  let run := { existing with
    runId := named existing.runId
    status
    completedAt := some completedAt }
  ({ state with runs := state.runs.insert (key.run fireSlot) run }).pruneRunHistory key

def completeRunHistory
    (runId : Option TurnRunId) : TriggerRunHistoryStatus → Timestamp → RepositoryState →
      RepositoryState :=
  completeRun key fireSlot fun stored => stored.or runId

/-! ## User-facing calls -/

variable (library : ScheduleLibrary) (clock : Timestamp) (record : TriggerRecord)

def upsertTrigger (state : RepositoryState) : Except TriggerError Unit × RepositoryState :=
  match record.validate library clock with
  | .error error => (.error error, state)
  | .ok () => (.ok (), { state with records := state.records.insert record.key record })

def removeTrigger (state : RepositoryState) : TriggerAnswer × RepositoryState :=
  (.ok (state.records.get key), { state with records := state.records.remove key })

variable (target : ScopedTrigger)

def removeScopedTrigger (state : RepositoryState) : TriggerAnswer × RepositoryState :=
  match state.records.get target.key with
  | none => (.ok none, state)
  | some record =>
    if target.Matches record then state.removeTrigger target.key else (.ok none, state)

def store (state : RepositoryState) : TriggerAnswer × RepositoryState :=
  (.ok (some record), { state with records := state.records.insert key record })

def setScopedTriggerState (newState : TriggerState)
    (state : RepositoryState) : TriggerAnswer × RepositoryState :=
  match validateUserSettableTriggerState newState with
  | .error error => (.error error, state)
  | .ok () =>
    match state.records.get target.key with
    | none => (.ok none, state)
    | some record =>
      if target.Matches record ∧ record.state ≠ .completed then
        state.store target.key { record with state := newState }
      else (.ok none, state)

def renameScopedTrigger (name : AutomationName)
    (state : RepositoryState) : TriggerAnswer × RepositoryState :=
  match state.records.get target.key with
  | none => (.ok none, state)
  | some record =>
    if target.Matches record then state.store target.key { record with name := name.value }
    else (.ok none, state)

/-! ## The life of a fire -/

def claimDueFire (request : ClaimDueFireRequest) (state : RepositoryState) :
    ClaimDueFireOutcome × RepositoryState :=
  match state.records.get request.key with
  | none => (.notFound, state)
  | some record =>
    if record.state ≠ .scheduled ∨ record.nextRunAt ≠ request.fireSlot ∨
        request.now < request.fireSlot then
      (.notDue record, state)
    else if record.hasActiveFire then
      (.alreadyActive record.activeFireSlot record.activeRunRef, state)
    else
      let claimed := { record with activeFireSlot := some request.fireSlot, activeRunRef := none }
      let run := TriggerRunRecord.running (request.key.run request.fireSlot) none request.now
      (.claimed claimed request.fireSlot, pruneRunHistory claimed.key
          { records := state.records.insert request.key claimed
            runs := state.runs.insert (request.key.run request.fireSlot) run })

/-- Change the record of a trigger whose claimed slot this is; a refused change leaves the
record alone. -/
def updateClaimedFire (fire : FireRef) (update : TriggerRecord → Except TriggerError TriggerRecord)
    (state : RepositoryState) : TriggerAnswer × RepositoryState :=
  match state.records.get fire.key with
  | none => (.ok none, state)
  | some record =>
    if record.activeFireSlot ≠ some fire.fireSlot then (.ok none, state)
    else
      match update record with
      | .error error => (.error error, state)
      | .ok updated => state.store fire.key updated

/-- The second critical section of a fire result: a changed record is noted in the history. -/
def withHistory (note : TriggerRecord → RepositoryState → RepositoryState) :
    TriggerAnswer × RepositoryState → TriggerAnswer × RepositoryState
  | (.ok (some record), state) => (.ok (some record), note record state)
  | refused => refused

/-- Accept a fire for a run, or see that it is accepted for that run already. -/
def acceptFire (clock fireSlot : Timestamp) (runId : TurnRunId)
    (acceptedAt : Timestamp) (record : TriggerRecord) : Except TriggerError TriggerRecord :=
  match record.activeRunRef with
  | some activeRunRef => do
      rejectRunRefRewrite activeRunRef runId
      return record
  | none => do
      let next ← record.schedule.nextSlotAfter library clock fireSlot
      let nextRunAt ← match next with
        | none => pure record.nextRunAt
        | some slot => do
            rejectNonFutureNextRunAt fireSlot slot
            pure slot
      return { record with
        nextRunAt
        lastRunAt := some acceptedAt
        lastFiredSlot := some fireSlot
        lastStatus := some .ok
        activeFireSlot := some fireSlot
        activeRunRef := some runId }

def markFireAccepted
    (request : FireAcceptedRequest) (state : RepositoryState) : TriggerAnswer × RepositoryState :=
  withHistory
    (fun record => upsertRunningRunHistory request.key request.fireSlot request.runId
      (some request.threadId) (record.lastRunAt.getD request.submittedAt))
    (state.updateClaimedFire request.toFireRef
      (acceptFire library clock request.fireSlot request.runId request.submittedAt))

def markFireReplayed
    (request : FireReplayedRequest) (state : RepositoryState) : TriggerAnswer × RepositoryState :=
  withHistory
    (fun record => upsertRunningRunHistory request.key request.fireSlot request.originalRunId
      request.threadId (record.lastRunAt.getD request.replayedAt))
    (state.updateClaimedFire request.toFireRef
      (acceptFire library clock request.fireSlot request.originalRunId request.replayedAt))

def failedFire : TriggerRecord :=
  { record with
    lastStatus := some .error
    activeFireSlot := none
    activeRunRef := none }

def noteFailure (fire : FireRef) (clock : Timestamp) (_ : TriggerRecord) :
    RepositoryState → RepositoryState :=
  completeRunHistory fire.key fire.fireSlot none .error clock

def markFireRetryableFailed (request : FireRetryableFailedRequest)
    (state : RepositoryState) : TriggerAnswer × RepositoryState :=
  withHistory (noteFailure request.toFireRef clock)
    (state.updateClaimedFire request.toFireRef fun record => do
      rejectFailedResultAfterActiveRun record.activeRunRef
      match record.schedule with
      | .cron _ _ =>
        if request.fireSlot < record.nextRunAt then
          .error (.invalidRecord .other
            "retryable fire failure must leave next_run_at at or before the failed fire slot")
        else return failedFire record
      | .once _ _ => return failedFire record)

def markFirePermanentlyFailed (request : FirePermanentFailedRequest)
    (state : RepositoryState) : TriggerAnswer × RepositoryState :=
  withHistory (noteFailure request.toFireRef clock)
    (state.updateClaimedFire request.toFireRef fun record => do
      rejectFailedResultAfterActiveRun record.activeRunRef
      rejectNonFutureNextRunAt request.fireSlot request.nextRunAt
      return { failedFire record with nextRunAt := request.nextRunAt })

def markFireTerminallyFailed (request : FireTerminalFailedRequest)
    (state : RepositoryState) : TriggerAnswer × RepositoryState :=
  withHistory (noteFailure request.toFireRef clock)
    (state.updateClaimedFire request.toFireRef fun record => do
      rejectFailedResultAfterActiveRun record.activeRunRef
      return { failedFire record with state := .completed })

/-- The run of an accepted fire has ended; a schedule without a next slot is completed. -/
def clearActiveFire (request : ClearActiveFireRequest) (state : RepositoryState) :
    TriggerAnswer × RepositoryState :=
  match state.records.get request.key with
  | none => (.ok none, state)
  | some record =>
    if record.activeFireSlot ≠ some request.fireSlot ∨ record.activeRunRef ≠ some request.runId then
      (.ok none, state)
    else
      match record.schedule.nextSlotAfter library clock request.fireSlot with
      | .error error => (.error error, state)
      | .ok next =>
        let cleared := { record with
          activeFireSlot := none
          activeRunRef := none
          nextRunAt := next.getD record.nextRunAt
          state := if next.isSome then record.state else .completed }
        (.ok (some cleared), completeRun request.key request.fireSlot (fun _ => some request.runId)
            request.status clock { state with records := state.records.insert request.key cleared })

end RepositoryState

/-- The calls that change the repository; the others only read.  `clock` is the time a
call reads from the system. -/
inductive TriggerOp where
  | upsertTrigger (clock : Timestamp) (record : TriggerRecord)
  | removeTrigger (key : TriggerRepositoryKey)
  | removeScopedTrigger (target : ScopedTrigger)
  | setScopedTriggerState (target : ScopedTrigger) (newState : TriggerState)
  | renameScopedTrigger (target : ScopedTrigger) (name : AutomationName)
  | claimDueFire (request : ClaimDueFireRequest)
  | markFireAccepted (clock : Timestamp) (request : FireAcceptedRequest)
  | markFireReplayed (clock : Timestamp) (request : FireReplayedRequest)
  | markFireRetryableFailed (clock : Timestamp) (request : FireRetryableFailedRequest)
  | markFirePermanentlyFailed (clock : Timestamp) (request : FirePermanentFailedRequest)
  | markFireTerminallyFailed (clock : Timestamp) (request : FireTerminalFailedRequest)
  | clearActiveFire (clock : Timestamp) (request : ClearActiveFireRequest)

namespace TriggerOp

def key : TriggerOp → TriggerRepositoryKey
  | .upsertTrigger _ record => record.key
  | .removeTrigger key => key
  | .removeScopedTrigger target => target.key
  | .setScopedTriggerState target _ => target.key
  | .renameScopedTrigger target _ => target.key
  | .claimDueFire request => request.key
  | .markFireAccepted _ request => request.key
  | .markFireReplayed _ request => request.key
  | .markFireRetryableFailed _ request => request.key
  | .markFirePermanentlyFailed _ request => request.key
  | .markFireTerminallyFailed _ request => request.key
  | .clearActiveFire _ request => request.key

def apply (library : ScheduleLibrary) (state : RepositoryState) : TriggerOp → RepositoryState
  | .upsertTrigger clock record => (state.upsertTrigger library clock record).2
  | .removeTrigger key => (state.removeTrigger key).2
  | .removeScopedTrigger target => (state.removeScopedTrigger target).2
  | .setScopedTriggerState target newState => (state.setScopedTriggerState target newState).2
  | .renameScopedTrigger target name => (state.renameScopedTrigger target name).2
  | .claimDueFire request => (state.claimDueFire request).2
  | .markFireAccepted clock request => (state.markFireAccepted library clock request).2
  | .markFireReplayed clock request => (state.markFireReplayed library clock request).2
  | .markFireRetryableFailed clock request => (state.markFireRetryableFailed clock request).2
  | .markFirePermanentlyFailed clock request => (state.markFirePermanentlyFailed clock request).2
  | .markFireTerminallyFailed clock request => (state.markFireTerminallyFailed clock request).2
  | .clearActiveFire clock request => (state.clearActiveFire library clock request).2

end TriggerOp

end Ironclaw.Triggers
