import Ironclaw.Lib.BoundedLog
import Ironclaw.Turns.Store

/-!
# The lifecycle events an operation writes

The event log of the store is a bounded log that only `push_event` reads or writes.  So an
operation run over any other log gives the same answer and the same store, with the same
events pushed to that log.  The events are stamped with the cursors the operation draws, one
after another.
-/

namespace Ironclaw.Turns

open Lib BoundedLog
open List

def eventStamp (event : TurnLifecycleEvent) : Nat := event.cursor.value

namespace Inner

def log (inner : Inner) : BoundedLog TurnLifecycleEvent :=
  ⟨inner.events, inner.eventRetentionFloor.value, inner.limits.maxEvents⟩

@[simps events cursor records submitIdempotency submitIdempotencyInFlight treeReservations
  terminalRuns queuedRuns]
def withLog (inner : Inner) (log : BoundedLog TurnLifecycleEvent) : Inner :=
  { inner with
    events := log.entries
    eventRetentionFloor := ⟨log.floor⟩
    limits := { inner.limits with maxEvents := log.capacity } }

section

variable (inner : Inner) (log : BoundedLog TurnLifecycleEvent)

@[simp]
theorem withLog_treeRoot : (inner.withLog log).treeRoot = inner.treeRoot := rfl

@[simp]
theorem withLog_treeState : (inner.withLog log).treeState = inner.treeState := rfl

/-- The floor of `push_event` is the raised floor of the log. -/
theorem prunedFloor_eq (floor : EventCursor) (entries : List TurnLifecycleEvent) (count : Nat) :
    (if count = 0 then floor
      else match entries[count - 1]? with
        | some lastPruned => cursorMax floor lastPruned.cursor
        | none => floor) =
      ⟨raisedFloor eventStamp floor.value entries count⟩ := by
  unfold raisedFloor
  by_cases fits : count = 0
  · rw [if_pos fits, if_pos fits]
  rw [if_neg fits, if_neg fits]
  cases entries[count - 1]? with
  | none => rfl
  | some =>
    dsimp only [cursorMax, eventStamp]
    split
    next lower => rw [Nat.max_eq_right (Nat.le_of_lt lower)]
    next lower => rw [Nat.max_eq_left (Nat.not_lt.mp lower)]

theorem pushEvent_eq (record : RunRecord) (kind : TurnEventKind)
    (sanitizedReason detail : Option String) (now : TurnTimestamp) :
    inner.pushEvent record kind sanitizedReason detail now =
      inner.withLog (inner.log.push eventStamp (eventFor record kind sanitizedReason detail now)) :=
  congrArg (fun floor => { inner with
      events := (inner.events ++ [eventFor record kind sanitizedReason detail now]).drop
        ((inner.events ++ [eventFor record kind sanitizedReason detail now]).length -
          inner.limits.maxEvents)
      eventRetentionFloor := floor })
    (prunedFloor_eq inner.eventRetentionFloor _ _)

/-! ### Updates that look at the store -/

@[simp]
theorem rememberRetryIdempotency_withLog (key : RunIdempotencyKey)
    (result : Except TurnError RetryTurnResponse) (createdAt : TurnTimestamp) :
    (inner.withLog log).rememberRetryIdempotency key result createdAt =
      (inner.rememberRetryIdempotency key result createdAt).withLog log := by
  unfold rememberRetryIdempotency
  split <;> rfl

theorem pruneTerminalRecord_withLog (runId : TurnRunId) :
    (inner.withLog log).pruneTerminalRecord runId =
      (inner.pruneTerminalRecord runId).withLog log := by
  unfold pruneTerminalRecord
  rw [show (inner.withLog log).prunable runId = inner.prunable runId from rfl]
  split <;> rfl

theorem pruneTerminalQueue_withLog (queue : List TurnRunId) (inner : Inner) :
    pruneTerminalQueue queue (inner.withLog log) =
      (pruneTerminalQueue queue inner).withLog log := by
  induction queue generalizing inner with
  | nil => rfl
  | cons _ _ ih =>
    unfold pruneTerminalQueue
    rw [show (inner.withLog log).limits.maxTerminalRecords = inner.limits.maxTerminalRecords
      from rfl]
    split
    · rw [← ih, ← pruneTerminalRecord_withLog]
      rfl
    · rfl

@[simp]
theorem pruneTerminalRecords_withLog :
    (inner.withLog log).pruneTerminalRecords = inner.pruneTerminalRecords.withLog log :=
  pruneTerminalQueue_withLog log inner.terminalRuns inner

end

/-! ## Cursors -/

/-- No run is stamped above the bound. -/
def Within (records : Table TurnRunId RunRecord) (bound : Nat) : Prop :=
  ∀ runId record, records.get runId = some record → record.eventCursor.value ≤ bound

section

variable {records : Table TurnRunId RunRecord} {bound : Nat} {runId other : TurnRunId}
  {record changed : RunRecord}

theorem Within.remove (within : Within records bound) (runId : TurnRunId) :
    Within (records.remove runId) bound :=
  fun candidate stored found => within candidate stored (Table.get_of_remove found)

theorem Within.insert (within : Within records bound) (low : record.eventCursor.value ≤ bound) :
    Within (records.insert runId record) bound := by
  intro candidate stored found
  rw [Table.get_insert] at found
  split at found
  · cases found
    exact low
  · exact within candidate stored found

theorem Within.putBack (within : Within records bound)
    (found : records.get runId = some record) (same : changed.eventCursor = record.eventCursor) :
    Within ((records.remove runId).insert other changed) bound :=
  (within.remove runId).insert (by rw [same]; exact within runId record found)

theorem within_pruneTerminalRecords {inner : Inner} (within : Within inner.records bound) :
    Within inner.pruneTerminalRecords.records bound := by
  refine pruneTerminalRecords_keeps (motive := fun after => Within after.records bound)
    (fun inner rest runId within => ?_) within
  unfold pruneTerminalRecord
  split
  · exact within.remove runId
  · exact within

theorem cursor_pruneTerminalRecords (inner : Inner) :
    inner.pruneTerminalRecords.cursor = inner.cursor := by
  obtain ⟨_, _, _, _, pruned⟩ := inner.pruneTerminalRecords_eq
  rw [pruned]
  rfl

end

/-- The counter goes from one value to another while the events are stamped with its
values. -/
def Counted : Nat → List TurnLifecycleEvent → Nat → Prop
  | before, [], after => after = before
  | before, event :: rest, after =>
    eventStamp event = saturatingAdd before 1 ∧ Counted (saturatingAdd before 1) rest after

theorem Counted.append {first second : List TurnLifecycleEvent} {before middle after : Nat}
    (counted : Counted before first middle) (later : Counted middle second after) :
    Counted before (first ++ second) after := by
  induction first generalizing before with
  | nil =>
    cases counted
    exact later
  | cons event _ ih => exact ⟨counted.1, ih counted.2⟩

/-! ## One operation over two logs -/

/-- An empty log with room for one event. -/
def openLog : BoundedLog TurnLifecycleEvent := ⟨[], 0, 1⟩

/-- What an operation did over the store's own log, over another log, and over an empty one
that shows the event it wrote. -/
structure Writes {α : Type} (inner : Inner) (log : BoundedLog TurnLifecycleEvent)
    (own logged shown : α × Inner) : Prop where
  onLog : logged = (own.1, own.2.withLog (log.pushAll eventStamp shown.2.events))
  onEmpty : shown = (own.1, own.2.withLog (openLog.pushAll eventStamp shown.2.events))
  single : shown.2.events.length ≤ 1
  counted : Counted inner.cursor shown.2.events own.2.cursor
  within : ∀ bound, (∀ event ∈ shown.2.events, eventStamp event ≤ bound) →
    Within inner.records bound → Within own.2.records bound

/-- Over every log the operation gives the same answer, leaves the same store and writes the
event it shows on an empty log. -/
def Steady {α : Type} (inner : Inner) (step : Inner → α × Inner) : Prop :=
  ∀ log, Writes inner log (step inner) (step (inner.withLog log)) (step (inner.withLog openLog))

namespace Writes

variable {α β : Type} {inner after : Inner} {log : BoundedLog TurnLifecycleEvent}
  {own logged shown : α × Inner}

theorem nothing (answer : α) (cursor : after.cursor = inner.cursor)
    (within : ∀ bound, Within inner.records bound → Within after.records bound) :
    Writes inner log (answer, after) (answer, after.withLog log)
      (answer, after.withLog openLog) :=
  ⟨rfl, rfl, Nat.zero_le 1, cursor, fun bound _ => within bound⟩

theorem same (answer : α) : Writes inner log (answer, inner) (answer, inner.withLog log)
      (answer, inner.withLog openLog) :=
  nothing answer rfl fun _ => id

theorem event (answer : α) (event : TurnLifecycleEvent)
    (cursor : after.cursor = saturatingAdd inner.cursor 1)
    (stamp : eventStamp event = saturatingAdd inner.cursor 1)
    (within : ∀ bound, eventStamp event ≤ bound → Within inner.records bound →
      Within after.records bound) :
    Writes inner log (answer, after) (answer, after.withLog (log.push eventStamp event))
      (answer, after.withLog (openLog.push eventStamp event)) :=
  ⟨rfl, rfl, Nat.le_refl 1, ⟨stamp, cursor⟩, fun bound low =>
    within bound (low event (mem_singleton_self event))⟩

variable (writes : Writes inner log own logged shown)
include writes

theorem map (next : α → Inner → β × Inner)
    (commutes : ∀ answer inner log, next answer (Inner.withLog inner log) =
      ((next answer inner).1, (next answer inner).2.withLog log))
    (cursor : ∀ answer inner, (next answer inner).2.cursor = inner.cursor)
    (within : ∀ answer inner bound, Within inner.records bound →
      Within (next answer inner).2.records bound) :
    Writes inner log (next own.1 own.2) (next logged.1 logged.2) (next shown.1 shown.2) := by
  have events : (next shown.1 shown.2).2.events = shown.2.events :=
    congrArg (fun result => result.2.events) (commutes shown.1 shown.2 shown.2.log)
  refine ⟨?_, ?_, ?_, ?_, ?_⟩
  · rw [events, writes.onLog, commutes]
  · rw [events]
    conv_lhs => rw [writes.onEmpty]
    exact commutes _ _ _
  · rw [events]
    exact writes.single
  · rw [events, cursor]
    exact writes.counted
  · intro bound low before
    rw [events] at low
    exact within _ _ _ (writes.within bound low before)

/-- The operation starts with a change that touches neither the cursor nor the runs. -/
theorem rebase {base : Inner} (cursor : inner.cursor = base.cursor)
    (records : inner.records = base.records) : Writes base log own logged shown :=
  ⟨writes.onLog, writes.onEmpty, writes.single, cursor ▸ writes.counted, fun bound low within =>
    writes.within bound low (records ▸ within)⟩

/-- Pruning of ended runs comes last. -/
theorem pruned :
    Writes inner log (own.1, own.2.pruneTerminalRecords) (logged.1, logged.2.pruneTerminalRecords)
      (shown.1, shown.2.pruneTerminalRecords) :=
  writes.map (fun answer inner => (answer, inner.pruneTerminalRecords))
    (fun answer inner log => by simp) (fun _ inner => cursor_pruneTerminalRecords inner)
    (fun _ _ _ => within_pruneTerminalRecords)

end Writes

/-! ## The operations -/

section

variable {inner : Inner} (log : BoundedLog TurnLifecycleEvent) (now : TurnTimestamp) {α : Type}
    (scope : TurnScope) (rootRunId : TurnRunId) (env : StoreEnv) (claim : LeaseClaim)
    (context : CallContext) (key : SubmitIdempotencyKey) (request : SubmitChildRunRequest)

theorem putBack_steady {runId : TurnRunId} {record : RunRecord}
    (found : inner.records.get runId = some record) (answer : α) : Steady inner fun inner =>
      (answer, (inner.removeRecord runId).insertRecord record.runId record) :=
  fun _ => .nothing answer rfl fun _ within => within.putBack found rfl

theorem heartbeat_steady : Steady inner (heartbeat env now claim) := by
  intro log
  simp only [heartbeat, withLease, withLog_records]
  split
  · exact .same _
  rename_i found
  iterate 2
    split
    · exact putBack_steady found _ log
  simp only [pushEvent_eq]
  exact .event _ _ rfl rfl fun bound low within => (within.remove _).insert low

theorem recordModelRouteSnapshot_steady (snapshot : LoopModelRouteSnapshot) :
    Steady inner (recordModelRouteSnapshot env now claim snapshot) := by
  intro log
  simp only [recordModelRouteSnapshot, withLease, withLog_records]
  split
  · exact .same _
  rename_i found
  iterate 3
    split
    · exact putBack_steady found _ log
  split
  · split <;> exact putBack_steady found _ log
  · exact .nothing _ rfl fun bound within => within.putBack found rfl

theorem blockRun_steady (request : BlockRunRequest) : Steady inner (blockRun now request) := by
  intro log
  simp only [blockRun, withLease, withLog_records]
  split
  · exact .same _
  rename_i found
  iterate 2
    split
    · exact putBack_steady found _ log
  simp only [parkRun, pushEvent_eq]
  exact .event _ _ rfl rfl fun bound low within => (within.remove _).insert low

/-! ### Ending a run -/

section

variable {runId : TurnRunId} {record current : RunRecord}

theorem refused_steady (found : inner.records.get runId = some record) (answer : α) :
    Steady inner fun inner => (answer,
      ((inner.removeRecord runId).insertRecord record.runId record).pruneTerminalRecords) :=
  fun log => (putBack_steady found answer log).pruned

theorem closed_steady (answer : α) (status : TurnStatus) (failure : Option SanitizedFailure)
    (checkpointId : Option TurnCheckpointId) (kind : TurnEventKind)
    (sanitizedReason detail : Option String) (other : TurnRunId) : Steady inner fun inner =>
      (answer, ((inner.removeRecord runId).closeRun current
        (current.closed status failure checkpointId inner.cursorAfter) kind sanitizedReason detail
          now).insertRecord other
            (current.closed status failure checkpointId inner.cursorAfter)) := by
  intro _
  simp only [closeRun, pushEvent_eq]
  exact .event _ _ rfl rfl fun bound low within => (within.remove _).insert low

end

theorem cancelCompletionTransition_steady :
    Steady inner (cancelCompletionTransition now claim) := by
  intro log
  simp only [cancelCompletionTransition, withLease, withLog_records]
  split
  · exact .same _
  rename_i found
  iterate 2
    split
    · exact refused_steady found _ log
  exact (closed_steady now _ _ _ _ _ _ _ _ log).pruned

theorem terminalTransition_steady (status : TurnStatus) (failure : Option SanitizedFailure)
    (kind : TurnEventKind) : Steady inner (terminalTransition now claim status failure kind) := by
  intro log
  simp only [terminalTransition, withLease, withLog_records]
  split
  · exact .same _
  rename_i found
  iterate 2
    split
    · exact refused_steady found _ log
  exact (closed_steady now _ _ _ _ _ _ _ _ log).pruned

/-! ### Loop exits -/

/-- A loop exit is committed with its record. -/
def committed (result : AppliedLoopTransition × Inner) : Except TurnError TurnRunState × Inner :=
  commitTransition result.1 result.2

section

variable {runId : TurnRunId} {record current : RunRecord}
  (found : inner.records.get runId = some record)
  (same : current.eventCursor = record.eventCursor)

include found same

theorem rejected_steady (error : TurnError) :
    Steady inner fun inner => committed (.rejected current error, inner.removeRecord runId) :=
  fun _ => .nothing _ rfl fun _ within => within.putBack found same

theorem completeClaimedRecord_steady : Steady inner fun inner =>
    committed ((inner.removeRecord runId).completeClaimedRecord now current) := by
  intro log
  unfold completeClaimedRecord
  split
  · exact rejected_steady found same _ log
  · exact (closed_steady now _ _ _ _ _ _ _ _ log).pruned

theorem cancelClaimedRecord_steady : Steady inner fun inner =>
    committed ((inner.removeRecord runId).cancelClaimedRecord now current) := by
  intro log
  unfold cancelClaimedRecord
  split
  · exact rejected_steady found same _ log
  · exact (closed_steady now _ _ _ _ _ _ _ _ log).pruned

theorem failClaimedRecord_steady (failure : SanitizedFailure) : Steady inner fun inner =>
    committed ((inner.removeRecord runId).failClaimedRecord now current failure) := by
  intro log
  unfold failClaimedRecord
  split
  · exact rejected_steady found same _ log
  · exact (closed_steady now _ _ _ _ _ _ _ _ log).pruned

theorem cancelOrFailClaimedRecord_steady (failure : SanitizedFailure) : Steady inner fun inner =>
    committed ((inner.removeRecord runId).cancelOrFailClaimedRecord now current failure) := by
  unfold cancelOrFailClaimedRecord
  split
  · exact failClaimedRecord_steady now found same failure
  · exact cancelClaimedRecord_steady now found same
  · exact rejected_steady found same _

theorem applyLoopExitMapping_steady (mapping : LoopExitMapping) : Steady inner fun inner =>
    committed ((inner.removeRecord runId).applyLoopExitMapping now current mapping) := by
  cases mapping with
  | recoveryRequired failure => exact cancelOrFailClaimedRecord_steady now found same failure
  | runnerOutcome outcome =>
    cases outcome with
    | completed => exact completeClaimedRecord_steady now found same
    | cancelled => exact cancelOrFailClaimedRecord_steady now found same _
    | blocked =>
      intro log
      simp only [applyLoopExitMapping]
      unfold blockClaimedRecord
      split
      · exact rejected_steady found same _ log
      · simp only [parkRun, pushEvent_eq]
        exact .event _ _ rfl rfl fun bound low within => (within.remove _).insert low
    | failed failure => exact failClaimedRecord_steady now found same failure

end

theorem applyValidatedLoopExit_steady (mapping : LoopExitMapping)
    (modelUsage : Option LoopModelUsage) :
    Steady inner (applyValidatedLoopExit now claim mapping modelUsage) := by
  intro log
  simp only [applyValidatedLoopExit, withLease, withLog_records]
  split
  · exact .same _
  rename_i record found
  split
  · exact rejected_steady found rfl _ log
  · have same : (record.withUsage modelUsage).eventCursor = record.eventCursor := rfl
    exact applyLoopExitMapping_steady now found same mapping log

theorem recordRunnerFailure_steady (failure : SanitizedFailure) :
    Steady inner (recordRunnerFailure now claim failure) := by
  intro log
  simp only [recordRunnerFailure, withLease, withLog_records]
  split
  · exact .same _
  rename_i found
  split
  · exact rejected_steady found rfl _ log
  · exact cancelOrFailClaimedRecord_steady now found rfl failure log

theorem relinquishRun_steady : Steady inner (relinquishRun now claim) := by
  intro log
  simp only [relinquishRun, withLease, withLog_records]
  split
  · exact .same _
  rename_i found
  split
  · exact putBack_steady found _ log
  split
  · simp only [pushEvent_eq]
    exact .event _ _ rfl rfl fun bound low within => (within.remove _).insert low
  · exact (closed_steady now _ _ _ _ _ _ _ _ log).pruned
  · exact putBack_steady found _ log

/-! ### Submissions and their relatives -/

theorem clearInFlight_steady (answer : α) :
    Steady inner fun inner => (answer, inner.clearInFlight key) :=
  fun _ => .nothing answer rfl fun _ => id

theorem refuseSubmit_steady (error : TurnError) :
    Steady inner fun inner => inner.refuseSubmit key error now := by
  intro log
  unfold refuseSubmit
  split
  · exact clearInFlight_steady key _ log
  · exact .nothing _ rfl fun _ => id

/-- A decided submission is answered from memory, another one goes on. -/
theorem unlessDecided_steady {otherwise : Inner → SubmitResult × Inner}
    (steady : Steady inner otherwise) :
    Steady inner fun inner => inner.unlessDecided key (otherwise inner) := by
  intro log
  simp only [unlessDecided, withLog_submitIdempotency]
  split
  · exact clearInFlight_steady key _ log
  · exact steady log

theorem claimSubmitIdempotency_steady :
    Steady inner fun inner => inner.claimSubmitIdempotency key := by
  intro _
  unfold claimSubmitIdempotency
  beta_reduce
  rw [withLog_submitIdempotency, withLog_submitIdempotency, withLog_submitIdempotencyInFlight,
    withLog_submitIdempotencyInFlight]
  split
  · exact .same _
  · split
    · exact .same _
    · exact .nothing _ rfl fun _ => id

theorem checkAdmissionBuckets_withLog
    (limitFor : TurnAdmissionBucket → Except Unit TurnAdmissionLimit)
    (buckets : List TurnAdmissionBucket) :
    (inner.withLog log).checkAdmissionBuckets limitFor buckets =
      inner.checkAdmissionBuckets limitFor buckets := by
  induction buckets with
  | nil => rfl
  | cons _ _ ih =>
    unfold checkAdmissionBuckets
    rw [ih]
    rfl

section

variable {runId : TurnRunId} {admissionClass : TurnAdmissionClass} {scope : TurnScope}
  {actor : TurnActor} {limitFor : TurnAdmissionBucket → Except Unit TurnAdmissionLimit}

theorem reserveAdmission_withLog :
    (inner.withLog log).reserveAdmission runId admissionClass scope actor limitFor =
      (inner.reserveAdmission runId admissionClass scope actor limitFor).map
        fun reserved => reserved.withLog log := by
  unfold reserveAdmission
  dsimp only
  rw [checkAdmissionBuckets_withLog]
  split <;> rfl

theorem reserveAdmission_kept {reserved : Inner}
    (admitted : inner.reserveAdmission runId admissionClass scope actor limitFor = .ok reserved) :
    reserved.cursor = inner.cursor ∧ reserved.records = inner.records := by
  unfold reserveAdmission at admitted
  dsimp only at admitted
  split at admitted
  · cases admitted
  · cases admitted
    exact ⟨rfl, rfl⟩

end

theorem acceptSubmit_steady (request : SubmitTurnRequest) (runId : TurnRunId)
    (profile : TurnRunProfile) (route : Option LoopModelRouteSnapshot) :
    Steady inner fun reserved =>
      reserved.acceptSubmit context key request runId profile route := by
  have opened : Steady inner fun reserved => ((), (reserved.nextCursor.insertTurn
      (turnRecordOf request context.freshTurnId)).openRun (queuedRecord runId request
        context.freshTurnId profile route reserved.cursorAfter) request.receivedAt .submitted
          context.now) := by
    intro log
    simp only [openRun, pushEvent_eq]
    exact .event _ _ rfl rfl fun bound low within => within.insert low
  intro log
  exact (opened log).map (fun _ inner => inner.decideSubmit key _ _) (fun _ _ _ => rfl)
    (fun _ _ => rfl) (fun _ _ _ => id)

theorem submitCommit_steady (request : SubmitTurnRequest) :
    Steady inner (submitCommit env context key request) := by
  refine unlessDecided_steady key fun log => ?_
  simp only [show ∀ log, (inner.withLog log).submitCommitChecks = inner.submitCommitChecks
    from fun _ => rfl]
  iterate 2
    split
    · exact refuseSubmit_steady _ key _ log
  simp only [reserveAdmission_withLog]
  cases admitted : inner.reserveAdmission _ _ _ _ _ with
  | error => exact refuseSubmit_steady _ key _ log
  | ok =>
    obtain ⟨cursor, records⟩ := reserveAdmission_kept admitted
    exact (acceptSubmit_steady context key request _ _ _ log).rebase cursor records

theorem submitAdmission_steady : Steady inner (submitAdmission context key now) := by
  refine unlessDecided_steady key fun log => ?_
  split
  · exact refuseSubmit_steady now key _ log
  · exact .same _

theorem refuseLineage_steady : Steady inner (refuseLineage key now) :=
  unlessDecided_steady key (refuseSubmit_steady now key _)

theorem submitChildLineage_steady : Steady inner (submitChildLineage key request) := by
  refine unlessDecided_steady key fun log => ?_
  simp only [show ∀ log, (inner.withLog log).childParent = inner.childParent from fun _ => rfl]
  split
  · exact refuseSubmit_steady _ key _ log
  · exact .same _

theorem rollback_steady (reservationKey : SpawnTreeReservationKey)
    (previous : TreeReservationState) (key : SubmitIdempotencyKey) (error : TurnError) :
    Steady inner fun inner =>
      (inner.rollbackTreeReservation reservationKey previous).refuseSubmit key error now := by
  intro log
  unfold rollbackTreeReservation
  split
  · exact (@refuseSubmit_steady (inner.removeTreeState reservationKey) now key error log).rebase
      rfl rfl
  · exact (@refuseSubmit_steady (inner.insertTreeState reservationKey previous) now key error
      log).rebase rfl rfl

theorem submitChildCommit_steady : Steady inner (submitChildCommit context key request) := by
  refine unlessDecided_steady key fun log => ?_
  simp only [show ∀ log, (inner.withLog log).childCommitChecks = inner.childCommitChecks
    from fun _ => rfl]
  iterate 2
    split
    · exact refuseSubmit_steady _ key _ log
  rename_i plan _
  simp only [show ∀ log key state, (inner.withLog log).insertTreeState key state =
    (inner.insertTreeState key state).withLog log from fun _ _ _ => rfl,
    reserveAdmission_withLog, withLog_treeState]
  cases admitted : (inner.insertTreeState plan.reservationKey
    { inner.treeState plan.reservationKey with count := plan.nextCount }).reserveAdmission
      _ _ _ _ _ with
  | error =>
    exact (@rollback_steady (inner.insertTreeState plan.reservationKey _) _ _ _ key _
      log).rebase rfl rfl
  | ok =>
    obtain ⟨cursor, records⟩ := reserveAdmission_kept admitted
    exact (acceptSubmit_steady context key _ _ _ _ log).rebase cursor records

/-! ### Resuming, retrying, cancelling -/

theorem resumeTurnOnce_steady (request : ResumeTurnRequest) :
    Steady inner (resumeTurnOnce now request) := by
  intro log
  unfold resumeTurnOnce
  simp only [withLog_records]
  split
  · exact .same _
  rename_i found
  iterate 4
    split
    · exact putBack_steady found _ log
  simp only [pushEvent_eq]
  exact .event _ _ rfl rfl fun bound low within => (within.remove _).insert low

theorem resumeTurn_steady (request : ResumeTurnRequest) :
    Steady inner (resumeTurn now request) := by
  intro log
  simp only [resumeTurn, show ∀ log, (inner.withLog log).resumeIdempotency =
    inner.resumeIdempotency from fun _ => rfl]
  split
  · exact .same _
  · exact (resumeTurnOnce_steady now request log).map
      (fun answer inner => (answer, inner.rememberResumeIdempotency _ answer now))
      (fun _ _ _ => rfl) (fun _ _ => rfl) (fun _ _ _ => id)

theorem retryTurnOnce_steady (request : RetryTurnRequest) :
    Steady inner (retryTurnOnce context request) := by
  intro log
  simp only [retryTurnOnce, reserveAdmission_withLog, show ∀ log, (inner.withLog log).retrySource
    request = inner.retrySource request from fun _ => rfl, show ∀ log, (inner.withLog
    log).threadBusy = inner.threadBusy from fun _ => rfl]
  iterate 2
    split
    · exact .same _
  cases admitted : inner.reserveAdmission _ _ _ _ _ with
  | error => exact .same _
  | ok =>
    obtain ⟨cursor, records⟩ := reserveAdmission_kept admitted
    simp only [Except.map, openRun, pushEvent_eq]
    refine (Writes.event _ _ rfl rfl fun bound low within => ?_).rebase cursor records
    exact within.insert low

theorem rememberRetryIdempotency_kept (inner : Inner) (key : RunIdempotencyKey)
    (result : Except TurnError RetryTurnResponse) :
    (inner.rememberRetryIdempotency key result now).cursor = inner.cursor ∧
      (inner.rememberRetryIdempotency key result now).records = inner.records := by
  unfold rememberRetryIdempotency
  split <;> exact ⟨rfl, rfl⟩

theorem retryTurn_steady (request : RetryTurnRequest) :
    Steady inner (retryTurn context request) := by
  intro log
  simp only [retryTurn, show ∀ log, (inner.withLog log).retryIdempotency =
    inner.retryIdempotency from fun _ => rfl]
  split
  · exact .same _
  refine (retryTurnOnce_steady context request log).map
    (fun answer inner => (answer, inner.rememberRetryIdempotency _ answer context.now))
    (fun _ _ _ => by simp) (fun answer inner => ?_) (fun answer inner bound within => ?_)
  · exact (rememberRetryIdempotency_kept _ inner _ _).1
  · dsimp only
    rw [(rememberRetryIdempotency_kept _ inner _ _).2]
    exact within

theorem requestCancelOnce_steady (request : CancelRunRequest) :
    Steady inner (requestCancelOnce now request) := by
  intro log
  unfold requestCancelOnce
  simp only [withLog_records]
  split
  · exact .same _
  rename_i found
  iterate 4
    split
    · exact refused_steady found _ log
  split
  all_goals
    simp only [pushEvent_eq]
    exact (Writes.event _ _ rfl rfl fun bound low within => (within.remove _).insert low).pruned

theorem requestCancel_steady (request : CancelRunRequest) :
    Steady inner (requestCancel now request) := by
  intro log
  simp only [requestCancel, show ∀ log, (inner.withLog log).cancelIdempotency =
    inner.cancelIdempotency from fun _ => rfl]
  split
  · exact .same _
  · exact (requestCancelOnce_steady now request log).map
      (fun answer inner => (answer, inner.rememberCancelIdempotency _ answer now))
      (fun _ _ _ => rfl) (fun _ _ => rfl) (fun _ _ _ => id)

/-! ### Spawn trees and checkpoints -/

theorem reserveTreeDescendants_steady (delta cap : Nat) :
    Steady inner (reserveTreeDescendants scope rootRunId delta cap) := by
  intro _
  simp only [reserveTreeDescendants, withLog_treeRoot, withLog_treeState]
  iterate 3
    split
    · exact .same _
  exact .nothing _ rfl fun _ => id

theorem retireEmptyRoot_steady (answer : α) (key : SpawnTreeReservationKey)
    (rootRunId : TurnRunId) :
    Steady inner fun inner => (answer, (inner.removeTreeState key).retireEmptyRoot rootRunId) := by
  intro log
  simp only [retireEmptyRoot, show ∀ log, (inner.withLog log).removeTreeState key =
      (inner.removeTreeState key).withLog log from fun _ => rfl, withLog_records,
    withLog_terminalRuns,
    show ∀ log, ((inner.removeTreeState key).withLog log).limits.maxTerminalRecords =
      (inner.removeTreeState key).limits.maxTerminalRecords from fun _ => rfl]
  split
  · split
    · exact .nothing _ rfl fun bound within => within.remove _
    have quiet : Steady inner fun inner => (answer, { inner.removeTreeState key with
        terminalRuns := (inner.removeTreeState key).terminalRuns ++ [rootRunId] }) :=
      fun _ => .nothing answer rfl fun _ => id
    exact (quiet log).pruned
  · exact .nothing _ rfl fun _ => id

theorem releaseTreeDescendants_steady (delta : Nat) (child : TurnRunId) :
    Steady inner (releaseTreeDescendants scope rootRunId delta child) := by
  intro log
  simp only [releaseTreeDescendants, withLog_treeRoot, withLog_treeReservations]
  iterate 3
    split
    · exact .same _
  split
  · exact .nothing _ rfl fun _ => id
  · split
    · exact retireEmptyRoot_steady _ _ _ log
    · exact .nothing _ rfl fun _ => id

theorem pruneReleasedChild_steady (rootRunId child : TurnRunId) :
    Steady inner (pruneReleasedChild scope rootRunId child) := by
  intro _
  simp only [pruneReleasedChild, withLog_treeReservations, withLog_records]
  iterate 3
    split
    · exact .same _
  exact .nothing _ rfl fun _ => id

/-! ### Claiming -/

theorem popMatchingQueuedRunLoop_withLog (scopeFilter : Option TurnScope) (rounds : Nat)
    (inner : Inner) : popMatchingQueuedRunLoop scopeFilter rounds (inner.withLog log) =
      ((popMatchingQueuedRunLoop scopeFilter rounds inner).1,
        (popMatchingQueuedRunLoop scopeFilter rounds inner).2.withLog log) := by
  induction rounds generalizing inner with
  | zero => rfl
  | succ _ ih =>
    unfold popMatchingQueuedRunLoop
    rw [withLog_queuedRuns, withLog_records]
    split
    · rfl
    rename_i runId rest _
    iterate 2
      split
      · exact ih { inner with queuedRuns := rest }
    rw [show (inner.withLog log).concurrency = inner.concurrency from rfl]
    split
    · rfl
    · exact ih (Inner.pushQueuedRun { inner with queuedRuns := rest } runId)

theorem claimMatchingQueuedRun_steady (request : ClaimRunRequest) :
    Steady inner (claimMatchingQueuedRun env now request) := by
  intro log
  have popped := fun log => popMatchingQueuedRunLoop_withLog log request.scopeFilter
    inner.queuedRuns.length inner
  obtain ⟨_, kept⟩ := popMatchingQueuedRunLoop_eq request.scopeFilter
    inner.queuedRuns.length inner
  simp only [claimMatchingQueuedRun, popMatchingQueuedRun, withLog_queuedRuns, popped]
  generalize popMatchingQueuedRunLoop request.scopeFilter inner.queuedRuns.length inner = scan
    at kept ⊢
  obtain ⟨chosen, _⟩ := scan
  subst kept
  cases chosen with
  | none => exact .nothing _ rfl fun _ => id
  | some =>
    simp only [withLog_records]
    split
    · exact .nothing _ rfl fun _ => id
    · simp only [pushEvent_eq]
      exact .event _ _ rfl rfl fun bound low within => (within.remove _).insert low

theorem recoverExpiredRun_steady (runId : TurnRunId) :
    Steady inner fun inner => inner.recoverExpiredRun now runId := by
  intro log
  simp only [recoverExpiredRun, withLog_records]
  split
  · exact .same _
  · exact closed_steady now _ _ _ _ _ _ _ _ log

end

/-! ## Sequences of events -/

/-- Over every log the operation gives the same answer, leaves the same store and pushes the
same events. -/
structure Emits {α : Type} (inner : Inner) (step : Inner → α × Inner)
    (pushed : List TurnLifecycleEvent) : Prop where
  onLog : ∀ log, step (inner.withLog log) =
    ((step inner).1, (step inner).2.withLog (log.pushAll eventStamp pushed))
  counted : Counted inner.cursor pushed (step inner).2.cursor
  within : ∀ bound, (∀ event ∈ pushed, eventStamp event ≤ bound) →
    Within inner.records bound → Within (step inner).2.records bound

section

variable {α β : Type} {inner : Inner} {first second : List TurnLifecycleEvent}
    {step : Inner → α × Inner} (env : StoreEnv) (request : ClaimRunsRequest)
    (fresh : Nat → TurnTimestamp × TurnLeaseToken) (rounds : Nat) (claimed : List ClaimedTurnRun)

/-- The event that an operation shows on an empty log is the one it pushes on every log. -/
theorem Steady.emits (steady : Steady inner step) :
    ∃ pushed, pushed.length ≤ 1 ∧ Emits inner step pushed :=
  ⟨_, (steady openLog).single, fun log => (steady log).onLog, (steady openLog).counted,
    (steady openLog).within⟩

theorem Emits.nothing (answer : α) : Emits inner (fun inner => (answer, inner)) [] :=
  ⟨fun _ => rfl, rfl, fun _ _ => id⟩

theorem Emits.bind {next : α → Inner → β × Inner} (emits : Emits inner step first)
    (later : Emits (step inner).2 (next (step inner).1) second) :
    Emits inner (fun inner => next (step inner).1 (step inner).2) (first ++ second) where
  onLog log := by
    rw [pushAll, foldl_append]
    simp only [emits.onLog log]
    exact later.onLog _
  counted := emits.counted.append later.counted
  within bound low before := by
    rw [forall_mem_append] at low
    exact later.within bound low.2 (emits.within bound low.1 before)

theorem Emits.answer (emits : Emits inner step first) (given : α → β) :
    Emits inner (fun inner => (given (step inner).1, (step inner).2)) first where
  onLog log := by simp only [emits.onLog log]
  __ := emits

theorem pruneTerminalRecords_emits (inner : Inner) :
    Emits inner (fun inner => ((), inner.pruneTerminalRecords)) [] :=
  ⟨fun log => by simp, cursor_pruneTerminalRecords inner, fun _ _ => within_pruneTerminalRecords⟩

theorem recoverExpiredRuns_emits (now : TurnTimestamp) (expired : List TurnRunId) (inner : Inner) :
    ∃ pushed, pushed.length ≤ expired.length ∧
      Emits inner (recoverExpiredRuns now expired) pushed := by
  induction expired generalizing inner with
  | nil => exact ⟨[], Nat.le_refl 0, Emits.nothing []⟩
  | cons runId rest ih =>
    obtain ⟨one, _, step⟩ := (@recoverExpiredRun_steady inner now runId).emits
    obtain ⟨others, _, later⟩ := ih (inner.recoverExpiredRun now runId).2
    refine ⟨one ++ others, ?_, @Emits.bind _ _ inner one others _
      (fun (answer : Option TurnRunState) inner =>
        (answer.toList ++ (recoverExpiredRuns now rest inner).1,
          (recoverExpiredRuns now rest inner).2)) step (later.answer _)⟩
    rw [length_append, length_cons]
    omega

/-- What a round of `claim_next_runs` does with its answer. -/
def afterClaim (env : StoreEnv) (request : ClaimRunsRequest)
    (fresh : Nat → TurnTimestamp × TurnLeaseToken) (rounds : Nat) (claimed : List ClaimedTurnRun)
    (answer : Except TurnError (Option ClaimedTurnRun)) (inner : Inner) :
    Except TurnError (List ClaimedTurnRun) × Inner :=
  match answer with
  | .error error => (.error error, inner)
  | .ok none => (.ok claimed, inner)
  | .ok (some run) => claimNextRunsLoop env request fresh rounds (claimed ++ [run]) inner

abbrev claimRound (env : StoreEnv) (request : ClaimRunsRequest)
    (fresh : Nat → TurnTimestamp × TurnLeaseToken) (rounds : Nat) :
    Inner → Except TurnError (Option ClaimedTurnRun) × Inner :=
  claimMatchingQueuedRun env (fresh rounds).1
    ⟨request.runnerId, (fresh rounds).2, request.scopeFilter⟩

theorem claimNextRunsLoop_succ (inner : Inner) :
    claimNextRunsLoop env request fresh (rounds + 1) claimed inner =
      afterClaim env request fresh rounds claimed (claimRound env request fresh rounds inner).1
        (claimRound env request fresh rounds inner).2 := by
  rw [claimNextRunsLoop]
  unfold afterClaim claimRound
  rcases claimMatchingQueuedRun env (fresh rounds).1 _ inner with ⟨_ | _ | _, _⟩
  · rfl
  · rfl
  · rfl

theorem claimNextRunsLoop_emits (inner : Inner) : ∃ pushed, pushed.length ≤ rounds ∧
      Emits inner (claimNextRunsLoop env request fresh rounds claimed) pushed := by
  induction rounds generalizing inner claimed with
  | zero => exact ⟨[], Nat.le_refl 0, Emits.nothing (Except.ok claimed)⟩
  | succ rounds ih =>
    obtain ⟨one, _, step⟩ :=
      (claimMatchingQueuedRun_steady (fresh rounds).1 env _ :
        Steady inner (claimRound env request fresh rounds)).emits
    obtain ⟨others, _, later⟩ : ∃ others, others.length ≤ rounds ∧
        Emits (claimRound env request fresh rounds inner).2
          (afterClaim env request fresh rounds claimed
            (claimRound env request fresh rounds inner).1) others := by
      rcases (claimRound env request fresh rounds inner).1 with error | _ | run
      · exact ⟨[], Nat.zero_le _, Emits.nothing (Except.error error)⟩
      · exact ⟨[], Nat.zero_le _, Emits.nothing (Except.ok claimed)⟩
      · exact ih (claimed ++ [run]) _
    refine ⟨one ++ others, ?_, ?_⟩
    · rw [length_append]
      omega
    · rw [show claimNextRunsLoop env request fresh (rounds + 1) claimed = _ from
        funext (claimNextRunsLoop_succ env request fresh rounds claimed)]
      exact step.bind later

end

end Inner

/-! ## Every operation -/

namespace StoreOp

/-- How many events an operation may write. -/
def burst : StoreOp → Nat
  | .claimNextRuns request _ => request.maxRuns
  | .recoverExpiredLeases _ _ expired => expired.length
  | _ => 1

variable (env : StoreEnv) (inner : Inner)

/-- The events an operation writes: what it leaves in an empty log that has room for them. -/
def emitted (op : StoreOp) : List TurnLifecycleEvent :=
  (op.apply env (inner.withLog ⟨[], 0, op.burst⟩)).events

open Turns.Inner in
theorem exists_emits (op : StoreOp) : ∃ pushed, pushed.length ≤ op.burst ∧
      Emits inner (fun inner => ((), op.apply env inner)) pushed := by
  have single : ∀ {α : Type} {step : Inner → α × Inner}, Steady inner step →
      ∃ pushed, pushed.length ≤ 1 ∧ Emits inner (fun inner => ((), (step inner).2)) pushed := by
    intro α _ steady
    obtain ⟨pushed, one, emits⟩ := steady.emits
    exact ⟨pushed, one, emits.answer fun _ => ()⟩
  cases op with
  | claimSubmit => exact single (claimSubmitIdempotency_steady _)
  | refuseLineage => exact single (refuseLineage_steady _ _)
  | submitAdmission => exact single (submitAdmission_steady _ _ _)
  | submitCommit => exact single (submitCommit_steady env _ _ _)
  | submitChildLineage => exact single (submitChildLineage_steady _ _)
  | submitChildCommit => exact single (submitChildCommit_steady _ _ _)
  | dropInFlight => exact single (clearInFlight_steady _ ())
  | resumeTurn => exact single (resumeTurn_steady _ _)
  | retryTurn => exact single (retryTurn_steady _ _)
  | requestCancel => exact single (requestCancel_steady _ _)
  | reserveTreeDescendants => exact single (reserveTreeDescendants_steady _ _ _ _)
  | releaseTreeDescendants => exact single (releaseTreeDescendants_steady _ _ _ _)
  | pruneReleasedChild => exact single (pruneReleasedChild_steady _ _ _)
  | claimNextRun => exact single (claimMatchingQueuedRun_steady _ env _)
  | claimNextRuns request fresh =>
    obtain ⟨pushed, bound, emits⟩ :=
      claimNextRunsLoop_emits env request fresh request.maxRuns [] inner
    exact ⟨pushed, bound, emits.answer fun _ => ()⟩
  | heartbeat => exact single (heartbeat_steady _ env _)
  | recoverExpiredLeases now request expired =>
    obtain ⟨pushed, bound, emits⟩ := recoverExpiredRuns_emits now expired inner
    have all := @Emits.bind _ _ inner pushed [] _ (fun _ inner =>
      ((), inner.pruneTerminalRecords)) emits (pruneTerminalRecords_emits _)
    rw [append_nil] at all
    exact ⟨pushed, bound, all⟩
  | recordModelRouteSnapshot => exact single (recordModelRouteSnapshot_steady _ env _ _)
  | blockRun => exact single (blockRun_steady _ _)
  | completeRun | failRun => exact single (terminalTransition_steady _ _ _ _ _)
  | cancelRun => exact single (cancelCompletionTransition_steady _ _)
  | recordRunnerFailure => exact single (recordRunnerFailure_steady _ _ _)
  | relinquishRun => exact single (relinquishRun_steady _ _)
  | applyValidatedLoopExit => exact single (applyValidatedLoopExit_steady _ _ _ _)
  | putLoopCheckpoint now checkpointId request =>
    exact @single _ (Inner.putLoopCheckpoint now checkpointId request) fun _ =>
      .nothing _ rfl fun _ => id

open Turns.Inner in
/-- Whatever log the store has, an operation pushes the same events to it. -/
theorem apply_emits (op : StoreOp) :
    Emits inner (fun inner => ((), op.apply env inner)) (op.emitted env inner) := by
  obtain ⟨pushed, bound, emits⟩ := op.exists_emits env inner
  have shown : op.emitted env inner = pushed := by
    have run := congrArg (fun result => result.2.events) (emits.onLog ⟨[], 0, op.burst⟩)
    refine run.trans ?_
    refine (pushAll_entries eventStamp _ pushed ?_).trans (nil_append _)
    simpa using bound
  rw [shown]
  exact emits

end StoreOp

end Ironclaw.Turns
