import Ironclaw.Turns.Simulation

/-!
# What a call does to the runs

Every run a call leaves behind is there as before or was changed in one of four ways:
opened, carried on as a live run, settled by a transition whose answer reports it, or
ended by a call that reports nothing to its caller about that run's status.
-/

namespace Ironclaw.Turns

open Lib Table

/-! ## Changes of a table -/

/-- The runs of `after` are runs of `before` or come from an allowed change. -/
def ChangedBy (change : TurnRunId → RunRecord → Prop) (before after : Table TurnRunId RunRecord) :
    Prop :=
  ∀ runId record, after.get runId = some record →
    before.get runId = some record ∨ change runId record

namespace ChangedBy

variable {change weaker : TurnRunId → RunRecord → Prop}
  {before middle after : Table TurnRunId RunRecord}

theorem refl (change : TurnRunId → RunRecord → Prop) (table : Table TurnRunId RunRecord) :
    ChangedBy change table table :=
  fun _ _ => .inl

theorem imp (changed : ChangedBy change before after)
    (implied : ∀ runId record, change runId record → weaker runId record) :
    ChangedBy weaker before after :=
  fun runId record found => (changed runId record found).imp_right (implied runId record)

theorem trans (first : ChangedBy change before middle) (second : ChangedBy change middle after) :
    ChangedBy change before after := by
  intro runId record found
  rcases second runId record found with earlier | new
  · exact first runId record earlier
  · exact .inr new

theorem insert {runId : TurnRunId} {record : RunRecord} (new : change runId record) :
    ChangedBy change before (before.insert runId record) := by
  intro _ _ found
  rw [get_insert] at found
  split at found
  next same =>
    cases found
    exact .inr (same ▸ new)
  · exact .inl found

theorem remove (change : TurnRunId → RunRecord → Prop) (table : Table TurnRunId RunRecord)
    (runId : TurnRunId) : ChangedBy change table (table.remove runId) :=
  fun _ _ found => .inl (get_of_remove found)

theorem replace {runId : TurnRunId} {record : RunRecord} (new : change record.runId record) :
    ChangedBy change before ((before.remove runId).insert record.runId record) :=
  (remove change before runId).trans (insert new)

end ChangedBy

namespace Inner

theorem pruneTerminalRecords_changed (change : TurnRunId → RunRecord → Prop) (inner : Inner) :
    ChangedBy change inner.records inner.pruneTerminalRecords.records := by
  refine pruneTerminalRecords_keeps
    (motive := fun after => ChangedBy change inner.records after.records)
    (fun middle rest runId changed => changed.trans ?_) (.refl _ _)
  unfold pruneTerminalRecord
  split
  · exact .remove _ _ _
  · exact .refl _ _

theorem changed_pruned {change : TurnRunId → RunRecord → Prop} {before : Table TurnRunId RunRecord}
    {inner : Inner} (changed : ChangedBy change before inner.records) :
    ChangedBy change before inner.pruneTerminalRecords.records :=
  changed.trans (pruneTerminalRecords_changed change inner)

/-! ## Reported changes -/

/-- A live run goes on, not parked, and keeps a checkpoint it has. -/
structure CarriedChange (inner : Inner) (runId : TurnRunId) (record : RunRecord) : Prop where
  wasLive : ∃ previous, inner.records.get runId = some previous ∧
    previous.status.isTerminal = false ∧
    (previous.checkpointId.isSome = true → record.checkpointId.isSome = true)
  live : record.status.isTerminal = false
  unparked : record.status.isBlocked = false

/-- A live run was parked with a checkpoint or ended, and the answer shows its status. -/
structure ReportedChange (inner : Inner) (own : TurnRunId) (answer : Except TurnError TurnRunState)
    (runId : TurnRunId) (record : RunRecord) : Prop where
  isOwn : runId = own
  wasLive : ∃ previous, inner.records.get own = some previous ∧ previous.status.isTerminal = false
  answered : ∃ state, answer = .ok state ∧ state.status = record.status
  settled : record.status.isTerminal = true ∨
    record.status.isBlocked = true ∧ record.checkpointId.isSome = true

/-- The run a call is about is settled as its answer shows, or goes on; `parks` says that
it may be parked. -/
structure Reports (inner : Inner) (own : TurnRunId) (parks : Prop)
    (result : Except TurnError TurnRunState × Inner) : Prop where
  changed : ChangedBy (fun runId record => inner.ReportedChange own result.1 runId record ∨
    inner.CarriedChange runId record) inner.records result.2.records
  shown : ∀ state record, result.1 = .ok state → result.2.records.get own = some record →
    state.status = record.status ∧
      (record.status.isTerminal = true ∨ parks ∧ record.status.isBlocked = true)

/-- What a call about a run does to it when the answer shows a state. -/
structure SettledChange (inner : Inner) (own : TurnRunId) (parks : Prop)
    (why : RunRecord → Prop) (answer : Option TurnRunState) (runId : TurnRunId)
    (record : RunRecord) : Prop where
  isOwn : runId = own
  wasLive : ∃ previous, inner.records.get own = some previous ∧
    previous.status.isTerminal = false ∧ (record.status.isTerminal = true → why previous)
  answered : answer = some record.state
  settled : record.status.isTerminal = true ∨
    parks ∧ record.status.isBlocked = true ∧ record.checkpointId.isSome = true

section

variable {inner after : Inner} {own : TurnRunId} {parks : Prop} {why : RunRecord → Prop}
  {answer : Option TurnRunState} {previous next : RunRecord}

theorem Moved.settled (moved : Moved inner after own previous next)
    (orderly : inner.roster.Orderly) (may : parks) (blocked : next.status.isBlocked = true)
    (checkpoint : next.checkpointId.isSome = true) :
    inner.SettledChange own parks why (some next.state) next.runId next where
  isOwn := moved.own.trans (orderly.keyed moved.found)
  wasLive := by
    refine ⟨previous, moved.found, moved.wasLive, fun ended => ?_⟩
    rw [moved.live] at ended
    cases ended
  answered := rfl
  settled := .inr ⟨may, blocked, checkpoint⟩

theorem Closed.settled (closed : Closed inner after own previous next)
    (orderly : inner.roster.Orderly) (cause : why previous) :
    inner.SettledChange own parks why (some next.state) next.runId next where
  isOwn := closed.own.trans (orderly.keyed closed.found)
  wasLive := ⟨previous, closed.found, closed.wasLive, fun _ => cause⟩
  answered := rfl
  settled := .inl closed.ended

theorem Moved.carried (moved : Moved inner after own previous next)
    (orderly : inner.roster.Orderly) (unparked : next.status.isBlocked = false)
    (checkpoint : next.checkpointId = previous.checkpointId) :
    inner.CarriedChange next.runId next := by
  refine ⟨⟨previous, ?_, moved.wasLive, ?_⟩, moved.live, unparked⟩
  · rw [moved.own, orderly.keyed moved.found]
    exact moved.found
  · rw [checkpoint]
    exact id

theorem RunEnd.changed (ends : RunEnd inner own parks why answer after)
    (orderly : inner.roster.Orderly) :
    ChangedBy (fun runId record => inner.SettledChange own parks why answer runId record ∨
      inner.CarriedChange runId record) inner.records after.records := by
  induction ends with
  | absent => exact .refl _ _
  | restored found =>
    rw [insertRecord_removeRecord found (orderly.keyed found)]
    exact .refl _ _
  | @kept _ previous _ written status checkpoint held =>
    obtain ⟨running, _⟩ := held (orderly.lease written.found)
    have live := isTerminal_of_holdsRunningSlot running
    rw [written.records]
    refine .replace (.inr ⟨⟨previous, ?_, live, ?_⟩, ?_, ?_⟩)
    · rw [written.own, orderly.keyed written.found]
      exact written.found
    · rw [checkpoint]
      exact id
    · rw [status, live]
    · rw [status]
      cases shape : previous.status <;> rw [shape] at running <;> first | rfl | cases running
  | parked may moved queue blocked checkpoint =>
    rw [moved.records]
    exact .replace (.inl (moved.settled orderly may blocked checkpoint))
  | asked moved queue status checkpoint | queued moved _ status checkpoint =>
    rw [moved.records]
    exact .replace (.inr (moved.carried orderly (by rw [status]; rfl) checkpoint))
  | closed ends cause =>
    refine changed_pruned ?_
    rw [ends.records]
    exact .replace (.inl (ends.settled orderly cause))
  | pruned _ ih => exact changed_pruned ih

/-- A run whose state the answer shows is settled, unless it was dropped on the spot. -/
theorem RunEnd.shown (ends : RunEnd inner own parks why answer after)
    (orderly : inner.roster.Orderly) (answered : answer.isSome = true) {record : RunRecord}
    (found : after.records.get own = some record) :
    inner.SettledChange own parks why answer own record := by
  have kept : ∀ middle : Inner, middle.pruneTerminalRecords.records.get own = some record →
      middle.records.get own = some record := fun middle stored =>
    (pruneTerminalRecords_changed (fun _ _ => False) middle own record stored).resolve_right id
  induction ends with
  | parked may moved _ blocked checkpoint =>
    have settled := @Moved.settled _ _ _ _ why _ _ moved orderly may blocked checkpoint
    rw [moved.records, settled.isOwn, get_insert_self] at found
    cases found
    exact settled.isOwn ▸ settled
  | closed ends cause =>
    have settled := @Closed.settled _ _ _ parks _ _ _ ends orderly cause
    have found := kept _ found
    rw [ends.records, settled.isOwn, get_insert_self] at found
    cases found
    exact settled.isOwn ▸ settled
  | pruned _ ih => exact ih answered (kept _ found)
  | _ => cases answered

theorem RunEnd.reports {result : Except TurnError TurnRunState × Inner}
    (ends : RunEnd inner own parks why result.1.toOption result.2)
    (orderly : inner.roster.Orderly) : inner.Reports own parks result where
  changed := by
    refine (ends.changed orderly).imp fun runId record => Or.imp_left fun change => ?_
    obtain ⟨previous, found, live, _⟩ := change.wasLive
    refine ⟨change.isOwn, ⟨previous, found, live⟩, ⟨record.state, ?_, rfl⟩,
      change.settled.imp_right And.right⟩
    cases answer : result.1 with
    | error => rw [answer] at change; cases change.answered
    | ok state => rw [answer] at change; cases change.answered; rfl
  shown state record answered found := by
    have change := ends.shown orderly (by rw [answered]; rfl) found
    rw [answered] at change
    cases change.answered
    exact ⟨rfl, change.settled.imp_right fun parked => ⟨parked.1, parked.2.1⟩⟩

theorem RunEnd.carries (ends : RunEnd inner own parks why none after)
    (orderly : inner.roster.Orderly) : ChangedBy inner.CarriedChange inner.records after.records :=
  (ends.changed orderly).imp fun _ _ change => change.resolve_left fun settled =>
    nomatch settled.answered

end

/-! ## Runs that go on -/

theorem carried_trans {inner middle after : Inner}
    (first : ChangedBy inner.CarriedChange inner.records middle.records)
    (second : ChangedBy middle.CarriedChange middle.records after.records) :
    ChangedBy inner.CarriedChange inner.records after.records := by
  intro runId record found
  rcases second runId record found with same | ⟨⟨previous, stored, _, checkpoint⟩, live, unparked⟩
  · exact first runId record same
  · refine .inr ⟨?_, live, unparked⟩
    rcases first runId previous stored with earlier | ⟨⟨earliest, start, alive, kept⟩, _, _⟩
    · exact ⟨previous, earlier, ‹_›, checkpoint⟩
    · exact ⟨earliest, start, alive, checkpoint ∘ kept⟩

section

variable {inner : Inner} (orderly : inner.roster.Orderly)

include orderly

theorem claimMatchingQueuedRun_changed (env : StoreEnv) (now : TurnTimestamp)
    (request : ClaimRunRequest) : ChangedBy inner.CarriedChange inner.records
      (inner.claimMatchingQueuedRun env now request).2.records := by
  have scanned := popMatchingQueuedRunLoop_scanned request.scopeFilter inner.queuedRuns.length
    inner fun runId => orderly.queued_of_mem
  unfold claimMatchingQueuedRun popMatchingQueuedRun
  generalize popMatchingQueuedRunLoop request.scopeFilter inner.queuedRuns.length inner = scan
    at scanned
  cases scanned with
  | nothing => exact .refl _ _
  | chosen runId record _ found queued =>
    dsimp only
    rw [found]
    refine (ChangedBy.remove _ _ runId).trans (.insert ?_)
    exact ⟨⟨record, found, by rw [queued]; rfl, id⟩, rfl, rfl⟩

theorem claimNextRunsLoop_changed (env : StoreEnv) (request : ClaimRunsRequest)
    (fresh : Nat → TurnTimestamp × TurnLeaseToken) (rounds : Nat) (claimed : List ClaimedTurnRun) :
    ChangedBy inner.CarriedChange inner.records
      (claimNextRunsLoop env request fresh rounds claimed inner).2.records := by
  refine (claimNextRunsLoop_keeps (motive := fun after => after.roster.Orderly ∧
    ChangedBy inner.CarriedChange inner.records after.records) (fun now request middle kept => ?_)
    request fresh rounds claimed ⟨orderly, .refl _ _⟩).2
  have steps : Roster.Steps False _ _ := claimMatchingQueuedRun_steps env now request kept.1
  exact ⟨kept.1.steps steps, carried_trans kept.2
    (claimMatchingQueuedRun_changed kept.1 env now request)⟩

theorem resumeTurn_changed (now : TurnTimestamp) (request : ResumeTurnRequest) :
    ChangedBy inner.CarriedChange inner.records (inner.resumeTurn now request).2.records := by
  unfold resumeTurn
  dsimp only
  split
  · exact .refl _ _
  · have ends := @resumeTurnOnce_ends inner now False (fun _ => False) request
    exact ends.carries orderly

end

end Inner

/-! ## Every call -/

/-- The identifier of the run a call may open. -/
def StoreOp.openedRun : StoreOp → Option TurnRunId
  | .submitCommit context _ request => some (request.requestedRunId.getD context.freshRunId)
  | .submitChildCommit context _ request => some (request.requestedRunId.getD context.freshRunId)
  | .retryTurn context _ => some context.freshRunId
  | _ => none

/-- The call ends the run without going through a transition that writes to the sink: a
cancellation of a run no runner owns, the relinquishing of a run whose cancellation was
requested, or the recovery of an expired lease. -/
def StoreOp.EndsSilently (inner : Inner) (runId : TurnRunId) : StoreOp → Prop
  | .requestCancel _ request => runId = request.runId ∧
      inner.cancelIdempotency.get ⟨request.scope, request.runId, request.idempotencyKey⟩ = none ∧
      ∃ record, inner.records.get runId = some record ∧ record.scope = request.scope ∧
        record.actor = request.actor ∧
        (record.status = .queued ∨ record.status.isBlocked = true)
  | .relinquishRun now claim => runId = claim.runId ∧
      ∃ record, inner.records.get runId = some record ∧
        ensureActiveLease record claim now = .ok () ∧ record.status = .cancelRequested
  | .recoverExpiredLeases _ request _ =>
    (inner.records.get runId).any (Inner.leaseExpired request) = true
  | _ => False

/-- The run a transition is about, and its answer. -/
def StoreOp.report (inner : Inner) : StoreOp → Option (TurnRunId × Except TurnError TurnRunState)
  | .blockRun now request => some (request.runId, (inner.blockRun now request).1)
  | .completeRun now claim => some (claim.runId, (inner.completeRun now claim).1)
  | .cancelRun now claim => some (claim.runId, (inner.cancelRun now claim).1)
  | .failRun now claim failure => some (claim.runId, (inner.failRun now claim failure).1)
  | .recordRunnerFailure now claim failure =>
    some (claim.runId, (inner.recordRunnerFailure now claim failure).1)
  | .applyValidatedLoopExit now claim mapping modelUsage =>
    some (claim.runId, (inner.applyValidatedLoopExit now claim mapping modelUsage).1)
  | _ => none

/-- How a call may change a run. -/
inductive StoreOp.Changes (inner : Inner) (op : StoreOp) (runId : TurnRunId)
    (record : RunRecord) : Prop where
  | opened (fresh : inner.records.get runId = none) (named : op.openedRun = some runId)
      (queued : record.status = .queued)
  | carried (change : inner.CarriedChange runId record)
  | reported (own : TurnRunId) (answer : Except TurnError TurnRunState)
      (given : op.report inner = some (own, answer))
      (change : inner.ReportedChange own answer runId record)
  | silent (ends : op.EndsSilently inner runId) (ended : record.status.isTerminal = true)

theorem Inner.Reports.changes {inner : Inner} {op : StoreOp} {own : TurnRunId} {parks : Prop}
    {result : Except TurnError TurnRunState × Inner} (reports : inner.Reports own parks result)
    (given : op.report inner = some (own, result.1)) :
    ChangedBy (op.Changes inner) inner.records result.2.records := by
  refine reports.changed.imp fun runId record change => ?_
  rcases change with reported | carried
  · exact .reported own result.1 given reported
  · exact .carried carried

namespace Inner

section

variable {inner : Inner} (orderly : inner.roster.Orderly)

include orderly

variable (now : TurnTimestamp)

theorem requestCancel_changed (request : CancelRunRequest) :
    ChangedBy ((StoreOp.requestCancel now request).Changes inner) inner.records
      (inner.requestCancel now request).2.records := by
  unfold requestCancel
  dsimp only
  split
  · exact .refl _ _
  next undecided =>
    obtain ⟨_, ends⟩ := @requestCancelOnce_ends inner now False request
    refine (ends.changed orderly).imp fun runId record change => ?_
    rcases change with settled | carried
    · obtain ⟨previous, found, _, cause⟩ := settled.wasLive
      have ended := settled.settled.resolve_right fun parked => parked.1
      exact .silent ⟨settled.isOwn, undecided, previous, settled.isOwn ▸ found, cause ended⟩ ended
    · exact .carried carried

theorem relinquishRun_changed (claim : LeaseClaim) :
    ChangedBy ((StoreOp.relinquishRun now claim).Changes inner) inner.records
      (inner.relinquishRun now claim).2.records := by
  obtain ⟨_, ends⟩ := @relinquishRun_ends inner now False claim
  refine (ends.changed orderly).imp fun runId record change => ?_
  rcases change with settled | carried
  · obtain ⟨previous, found, _, cause⟩ := settled.wasLive
    have ended := settled.settled.resolve_right fun parked => parked.1
    exact .silent ⟨settled.isOwn, previous, settled.isOwn ▸ found, cause ended⟩ ended
  · exact .carried carried

omit orderly in
theorem recoverExpiredRuns_changed (expired : List TurnRunId) (inner : Inner) :
    ChangedBy (fun runId record => runId ∈ expired ∧ record.status.isTerminal = true)
      inner.records (recoverExpiredRuns now expired inner).2.records := by
  induction expired generalizing inner with
  | nil => exact .refl _ _
  | cons runId _ ih =>
    refine ChangedBy.trans ?_ ((ih _).imp fun _ _ change =>
      ⟨List.mem_cons_of_mem _ change.1, change.2⟩)
    unfold recoverExpiredRun
    split
    · exact .refl _ _
    next record _ =>
      exact (ChangedBy.remove _ _ runId).trans (.insert
        ⟨List.mem_cons_self, expiredLeaseTerminalOutcome_isTerminal record.status⟩)

end

section

variable {inner : Inner}

theorem SectionEnd.changed {op : StoreOp} {key : SubmitIdempotencyKey} {commit? : Option Commit}
    {forks : Prop} {ended : SubmitResult × Inner} (named : ∀ commit, commit? = some commit →
      op.openedRun = some (commit.requestedRunId.getD commit.context.freshRunId))
    (ends : SectionEnd inner key commit? forks ended) :
    ChangedBy (op.Changes inner) inner.records ended.2.records := by
  cases ends with
  | decided | passed => exact .refl _ _
  | refused trees _ _ error receivedAt =>
    have same := roster_refuseSubmit (inner.withTrees trees) key error receivedAt
    rw [show (refuseSubmit _ _ _ _).2.records = inner.records from
      congrArg (fun roster => roster.records) same]
    exact .refl _ _
  | accepted _ _ _ _ given checked admitted =>
    obtain ⟨rfl, _⟩ := spec_of_reserveAdmission admitted
    obtain ⟨_, fresh, rfl⟩ := spec_of_submitCommitChecks checked
    exact .insert (.opened fresh (named _ given) rfl)

theorem retryTurn_changed (context : CallContext) (request : RetryTurnRequest)
    (fresh : inner.records.get context.freshRunId = none) :
    ChangedBy ((StoreOp.retryTurn context request).Changes inner) inner.records
      (inner.retryTurn context request).2.records := by
  unfold retryTurn
  dsimp only
  split
  · exact .refl _ _
  · dsimp only
    rw [show (rememberRetryIdempotency _ _ _ _).records = _ from
      congrArg (fun roster => roster.records) (roster_rememberRetryIdempotency _ _ _ _)]
    change ChangedBy _ _ (inner.retryTurnOnce context request).2.records
    unfold retryTurnOnce
    iterate 3
      split
      · exact .refl _ _
    rename_i admitted
    obtain ⟨counted, _⟩ := spec_of_reserveAdmission admitted
    rw [counted]
    exact .insert (.opened fresh rfl rfl)

theorem TreeWrite.changed {after : Inner} {empties : Prop} (change : TurnRunId → RunRecord → Prop)
    (writes : TreeWrite inner empties after) : ChangedBy change inner.records after.records := by
  cases writes with
  | same | stored => exact .refl _ _
  | emptied =>
    unfold retireEmptyRoot
    split
    · split
      · exact .remove _ _ _
      · exact pruneTerminalRecords_changed change _
    · exact .refl _ _

end

end Inner

open Turns.Inner in
/-- Every call changes runs only in the four ways. -/
theorem StoreOp.apply_changes (env : StoreEnv) {inner : Inner} (orderly : inner.roster.Orderly)
    (op : StoreOp) (admissible : op.Admissible inner) :
    ChangedBy (op.Changes inner) inner.records (op.apply env inner).records := by
  cases op with
  | claimSubmit key =>
    rw [show (StoreOp.apply _ _ _).records = inner.records from
      congrArg (fun roster => roster.records) (roster_claimSubmitIdempotency inner key)]
    exact .refl _ _
  | refuseLineage key receivedAt =>
    exact (refuseLineage_ends inner key receivedAt).changed (by rintro _ ⟨⟩)
  | submitAdmission context key receivedAt =>
    exact (submitAdmission_ends inner key context receivedAt).changed (by rintro _ ⟨⟩)
  | submitCommit context key request =>
    exact (submitCommit_ends inner key env context request).changed (by rintro _ ⟨⟩; rfl)
  | submitChildLineage key request =>
    exact (submitChildLineage_ends inner key request).changed (by rintro _ ⟨⟩)
  | submitChildCommit context key request =>
    exact (submitChildCommit_ends inner key context request).changed (by rintro _ ⟨⟩; rfl)
  | dropInFlight | putLoopCheckpoint => exact .refl _ _
  | resumeTurn now request => exact (resumeTurn_changed orderly now request).imp fun _ _ => .carried
  | retryTurn => exact retryTurn_changed _ _ admissible
  | requestCancel => exact requestCancel_changed orderly _ _
  | reserveTreeDescendants => exact (reserveTreeDescendants_treeWrite _ _ _ _ inner).changed _
  | releaseTreeDescendants => exact (releaseTreeDescendants_treeWrite _ _ _ _ inner).changed _
  | pruneReleasedChild => exact (pruneReleasedChild_treeWrite _ _ _ inner).changed _
  | claimNextRun now request =>
    exact (claimMatchingQueuedRun_changed orderly env now request).imp fun _ _ => .carried
  | claimNextRuns request fresh =>
    exact (claimNextRunsLoop_changed orderly env request fresh _ _).imp fun _ _ => .carried
  | heartbeat now claim =>
    have ends := @heartbeat_ends inner now False (fun _ => False) env claim
    exact (ends.carries orderly).imp fun _ _ => .carried
  | recoverExpiredLeases now request expired =>
    exact changed_pruned ((recoverExpiredRuns_changed now expired inner).imp fun _ _ change =>
      .silent ((admissible.2 _).mp change.1) change.2)
  | recordModelRouteSnapshot now claim snapshot =>
    have ends := @recordModelRouteSnapshot_ends inner now False (fun _ => False) env claim
      snapshot
    exact (ends.carries orderly).imp fun _ _ => .carried
  | blockRun now request =>
    have ends := @blockRun_ends inner now (fun _ => False) request
    exact (ends.reports orderly).changes rfl
  | completeRun now claim =>
    have ends := @terminalTransition_ends inner .completed now False claim rfl none .completed
    exact (ends.reports orderly).changes rfl
  | cancelRun now claim =>
    have ends := @cancelCompletionTransition_ends inner now False claim
    exact (ends.reports orderly).changes rfl
  | failRun now claim failure =>
    have ends := @terminalTransition_ends inner .failed now False claim rfl (some failure) .failed
    exact (ends.reports orderly).changes rfl
  | recordRunnerFailure now claim failure =>
    have ends := @recordRunnerFailure_ends inner now False claim failure
    exact (ends.reports orderly).changes rfl
  | relinquishRun => exact relinquishRun_changed orderly _ _
  | applyValidatedLoopExit now claim mapping modelUsage =>
    have ends := applyValidatedLoopExit_ends inner now claim mapping modelUsage
    exact (ends.reports orderly).changes rfl

end Ironclaw.Turns
