import Ironclaw.Turns.Cancellation
import Ironclaw.Turns.EventLog
import Ironclaw.Turns.Lease

/-!
# Calls of a runner that fail

A call that presents the lease of its run and is refused for the status of the run puts the
record back as it was.  The exit of a loop is the exception: the usage it reports is written
before the exit is matched with the status, and stays when the exit is rejected.
-/

namespace Ironclaw.Turns

open Lib LeaseCall RunRecord Turns.Inner

def LoopExitMapping.accepts (status : TurnStatus) : LoopExitMapping → Bool
  | .runnerOutcome .cancelled | .recoveryRequired _ => holdsRunningSlot status
  | .runnerOutcome _ => status = .running

/-- A loop exit that will be rejected reports no usage, or the one already stored. -/
def LeaseCall.UsageSettled (now : TurnTimestamp) (claim : LeaseClaim) (inner : Inner) :
    LeaseCall → Prop
  | .applyValidatedLoopExit mapping modelUsage => ∀ record,
      inner.records.get claim.runId = some record → ensureActiveLease record claim now = .ok () →
      mapping.accepts record.status = false →
      modelUsage = none ∨ modelUsage = record.modelUsage
  | _ => True

namespace Inner

variable {inner taken : Inner} {claim : LeaseClaim} {now : TurnTimestamp} {record : RunRecord}

variable (taken now record) in
theorem applyLoopExitMapping_cases (mapping : LoopExitMapping) :
    (mapping.accepts record.status = true ∧ ∃ changed state pruneTerminal,
      (taken.applyLoopExitMapping now record mapping).1 = .applied changed state pruneTerminal) ∨
    (mapping.accepts record.status = false ∧ ∃ error,
      taken.applyLoopExitMapping now record mapping = (.rejected record error, taken)) := by
  rcases mapping with (_ | _ | _ | _) | _ <;>
    simp only [applyLoopExitMapping, completeClaimedRecord, cancelOrFailClaimedRecord,
      blockClaimedRecord, failClaimedRecord, cancelClaimedRecord, LoopExitMapping.accepts] <;>
    cases record.status <;> simp [holdsRunningSlot]

theorem withUsage_eq_self {modelUsage : Option LoopModelUsage} :
    record.withUsage modelUsage = record ↔ modelUsage = none ∨ modelUsage = record.modelUsage := by
  cases record
  cases modelUsage <;> simp [withUsage, eq_comm]

/-- The call succeeds, or leaves the store as it was. -/
def Restores {α : Type} (inner : Inner) (result : Except TurnError α × Inner) : Prop :=
  ∀ error, result.1 = .error error → result.2 = inner

theorem Restores.ok {α : Type} (inner after : Inner) (answer : α) :
    Restores inner (.ok answer, after) := by
  intro _ failed
  cases failed

theorem Restores.error {α : Type} {after : Inner} (same : after = inner) (refusal : TurnError) :
    Restores inner ((.error refusal, after) : Except TurnError α × Inner) :=
  fun _ _ => same

theorem restores_map_iff {α β : Type} (given : α → β) (result : Except TurnError α × Inner) :
    Restores inner (result.map (·.map given) id) ↔ Restores inner result := by
  obtain ⟨answer, _⟩ := result
  cases answer <;> simp [Restores, Except.map]

/-- The status of the run is all that can still be wrong. -/
theorem restores_of_accepted (env : StoreEnv) (settled : inner.Settled)
    (found : inner.records.get claim.runId = some record) (keyed : record.runId = claim.runId)
    (accepted : ensureActiveLease record claim now = .ok ()) {call : LeaseCall}
    (other : ∀ mapping modelUsage, call ≠ .applyValidatedLoopExit mapping modelUsage) :
    Restores inner (call.perform env now claim inner) := by
  have restored := insertRecord_removeRecord found keyed
  have unpruned : ((inner.removeRecord claim.runId).insertRecord record.runId
      record).pruneTerminalRecords = inner := by
    rw [restored, pruneTerminalRecords_of_settled settled]
  cases call with
  | applyValidatedLoopExit mapping modelUsage => exact absurd rfl (other mapping modelUsage)
  | heartbeat | blockRun =>
    simp only [perform, heartbeat, blockRun, withLease, found, accepted]
    split
    · exact .error restored _
    · exact .ok _ _ _
  | recordModelRouteSnapshot =>
    simp only [perform, recordModelRouteSnapshot, withLease, found, accepted]
    iterate 2
      split
      · exact .error restored _
    split
    · split
      · exact .error restored _
      · exact .ok _ _ _
    · exact .ok _ _ _
  | cancelRun | completeRun | failRun failure =>
    simp only [perform, cancelRun, cancelCompletionTransition, completeRun, failRun,
      terminalTransition, withLease, found, accepted]
    split
    · exact .error unpruned _
    · exact .ok _ _ _
  | recordRunnerFailure failure =>
    -- The same decision as for an exit that asks for recovery.
    have call : inner.recordRunnerFailure now claim failure =
        committed ((inner.removeRecord claim.runId).applyLoopExitMapping now record
          (.recoveryRequired failure)) := by
      simp only [recordRunnerFailure, withLease, found, accepted]
      rfl
    simp only [perform, call]
    rcases applyLoopExitMapping_cases (inner.removeRecord claim.runId) now record
      (.recoveryRequired failure) with ⟨_, changed, state, pruneTerminal, applied⟩ |
        ⟨_, error, rejected⟩
    · rw [committed, applied]
      exact .ok _ _ _
    · rw [rejected]
      exact .error restored _
  | relinquishRun =>
    simp only [perform, relinquishRun, withLease, found, accepted]
    split
    · exact .ok _ _ _
    · exact .ok _ _ _
    · exact .error restored _

theorem applyValidatedLoopExit_restores_iff
    (found : inner.records.get claim.runId = some record) (keyed : record.runId = claim.runId)
    (accepted : ensureActiveLease record claim now = .ok ()) (mapping : LoopExitMapping)
    (modelUsage : Option LoopModelUsage) :
    Restores inner (inner.applyValidatedLoopExit now claim mapping modelUsage) ↔
      (mapping.accepts record.status = false →
        modelUsage = none ∨ modelUsage = record.modelUsage) := by
  have call : inner.applyValidatedLoopExit now claim mapping modelUsage =
      committed ((inner.removeRecord claim.runId).applyLoopExitMapping now
        (record.withUsage modelUsage) mapping) := by
    simp only [applyValidatedLoopExit, withLease, found, accepted]
    rfl
  rw [call, ← withUsage_eq_self]
  rcases applyLoopExitMapping_cases (inner.removeRecord claim.runId) now
    (record.withUsage modelUsage) mapping with ⟨takes, changed, state, pruneTerminal, applied⟩ |
      ⟨refuses, error, rejected⟩
  · rw [committed, applied]
    refine ⟨fun _ refuses => ?_, fun _ => .ok _ _ _⟩
    rw [show mapping.accepts record.status = true from takes] at refuses
    cases refuses
  · rw [rejected]
    constructor
    · intro restores _
      have same : (inner.removeRecord claim.runId).insertRecord record.runId
          (record.withUsage modelUsage) = inner := restores error rfl
      have stored : inner.records.get claim.runId = some (record.withUsage modelUsage) := by
        rw [← same, ← keyed]
        exact Table.get_insert_self _ _ _
      exact Option.some.inj (stored.symm.trans found)
    · intro settled
      refine .error ?_ _
      rw [settled refuses]
      exact insertRecord_removeRecord found keyed

end Inner

namespace turnStore

variable {env : StoreEnv} {guard : Inner → StoreOp → Prop} {inner : Inner}

/-- In every reachable state a failed call leaves the whole store as it was, if and only if it
is not a rejected exit that reports a new usage. -/
theorem failed_call_changes_nothing_iff (reached : (turnStore env).Reachable guard inner)
    (call : LeaseCall) (now : TurnTimestamp) (claim : LeaseClaim) :
    (∀ error, (call.perform env now claim inner).1 = .error error →
      (call.perform env now claim inner).2 = inner) ↔ call.UsageSettled now claim inner := by
  have agreement := (orderly reached).toAgreement
  by_cases holds : inner.HoldsLease claim now
  · obtain ⟨record, _, found, runner, token, expiry, current⟩ := holds
    have accepted : ensureActiveLease record claim now = .ok () := by
      simp [ensureActiveLease, runner, token, expiry, current]
    have keyed := agreement.keyed found
    cases call with
    | applyValidatedLoopExit mapping modelUsage =>
      have exits := applyValidatedLoopExit_restores_iff found keyed accepted mapping
        modelUsage
      refine (restores_map_iff _ _).trans (exits.trans ?_)
      refine ⟨fun kept other same _ => ?_, fun kept => kept record found accepted⟩
      rwa [Option.some.inj (same.symm.trans found)]
    | _ =>
      refine ⟨fun _ => trivial, fun _ => ?_⟩
      exact restores_of_accepted env (settled reached) found keyed accepted (by simp)
  · obtain ⟨_, refused⟩ := call.refused env agreement (settled reached) holds
    rw [refused]
    refine ⟨fun _ => ?_, fun _ _ _ => rfl⟩
    cases call with
    | applyValidatedLoopExit =>
      intro record found accepted
      exact absurd (holdsLease_of_accepted found (agreement.lease found) accepted) holds
    | _ => trivial

/-! ## A run that is asked to stop -/

def stoppingStore : Inner := (StoreOp.requestCancel 0 cancelFirst).apply sampleEnv claimedStore

theorem stoppingStore_reachable : (turnStore sampleEnv).Reachable System.anyStep stoppingStore := by
  refine .next claimedStore_reachable trivial ⟨?_, rfl⟩
  trivial

/-- It is not marked completed any more, and nothing is changed. -/
theorem failed_completion_changes_nothing :
    (completeRun.perform sampleEnv 0 ⟨⟨1⟩, ⟨7⟩, ⟨8⟩⟩ stoppingStore).1 =
        .error (.invalidTransition .cancelRequested .completed) ∧
      (completeRun.perform sampleEnv 0 ⟨⟨1⟩, ⟨7⟩, ⟨8⟩⟩ stoppingStore).2 =
        stoppingStore :=
  ⟨rfl, (failed_call_changes_nothing_iff stoppingStore_reachable .completeRun 0 _).mpr trivial
    _ rfl⟩

/-- It rejects the exit of a loop that completed, and keeps the reported usage. -/
theorem rejected_exit_records_usage : (turnStore sampleEnv).Reachable System.anyStep stoppingStore ∧
      (stoppingStore.applyValidatedLoopExit 0 ⟨⟨1⟩, ⟨7⟩, ⟨8⟩⟩ (.runnerOutcome .completed)
        (some ⟨1, 1, 0, 0⟩)).1 = .error (.invalidTransition .cancelRequested .completed) ∧
      (stoppingStore.records.get ⟨1⟩).bind modelUsage = none ∧
      ((stoppingStore.applyValidatedLoopExit 0 ⟨⟨1⟩, ⟨7⟩, ⟨8⟩⟩ (.runnerOutcome .completed)
        (some ⟨1, 1, 0, 0⟩)).2.records.get ⟨1⟩).bind modelUsage =
          some ⟨1, 1, 0, 0⟩ :=
  ⟨stoppingStore_reachable, rfl, by decide, by decide⟩

end turnStore

end Ironclaw.Turns
