import Ironclaw.Turns.Locks

/-!
# Leases over whole runs

A record carries a lease exactly while a runner owns its run, and a call that does
not present the current, unexpired lease of the run is refused and changes nothing.
-/

namespace Ironclaw.Turns

open Lib Ledger

inductive LeaseCall where
  | heartbeat
  | recordModelRouteSnapshot (snapshot : LoopModelRouteSnapshot)
  | blockRun (checkpointId : TurnCheckpointId) (stateRef : LoopCheckpointStateRef)
      (reason : BlockedReason)
  | completeRun
  | cancelRun
  | failRun (failure : SanitizedFailure)
  | recordRunnerFailure (failure : SanitizedFailure)
  | relinquishRun
  | applyValidatedLoopExit (mapping : LoopExitMapping) (modelUsage : Option LoopModelUsage)

/-- The call with the answer of a successful one left out. -/
def LeaseCall.perform (env : StoreEnv) (now : TurnTimestamp) (claim : LeaseClaim)
    (inner : Inner) : LeaseCall → Except TurnError Unit × Inner
  | .heartbeat => (inner.heartbeat env now claim).map (·.map fun _ => ()) id
  | .recordModelRouteSnapshot snapshot =>
    (inner.recordModelRouteSnapshot env now claim snapshot).map (·.map fun _ => ()) id
  | .blockRun checkpointId stateRef reason =>
    (inner.blockRun now ⟨claim, checkpointId, stateRef, reason⟩).map (·.map fun _ => ()) id
  | .completeRun => (inner.completeRun now claim).map (·.map fun _ => ()) id
  | .cancelRun => (inner.cancelRun now claim).map (·.map fun _ => ()) id
  | .failRun failure => (inner.failRun now claim failure).map (·.map fun _ => ()) id
  | .recordRunnerFailure failure =>
    (inner.recordRunnerFailure now claim failure).map (·.map fun _ => ()) id
  | .relinquishRun => (inner.relinquishRun now claim).map (·.map fun _ => ()) id
  | .applyValidatedLoopExit mapping modelUsage =>
    (inner.applyValidatedLoopExit now claim mapping modelUsage).map (·.map fun _ => ()) id

/-- The claim is the current lease of its run and has not expired. -/
def Inner.HoldsLease (inner : Inner) (claim : LeaseClaim) (now : TurnTimestamp) : Prop :=
  ∃ record expiresAt, inner.records.get claim.runId = some record ∧
    record.runnerId = some claim.runnerId ∧ record.leaseToken = some claim.leaseToken ∧
    record.leaseExpiresAt = some expiresAt ∧ now < expiresAt

variable {inner : Inner} {claim : LeaseClaim} {now : TurnTimestamp}

theorem holdsLease_of_accepted {record : RunRecord}
    (found : inner.records.get claim.runId = some record) (lease : record.LeaseShape)
    (accepted : ensureActiveLease record claim now = .ok ()) : inner.HoldsLease claim now := by
  unfold ensureActiveLease at accepted
  split at accepted
  · cases accepted
  rename_i matching
  rw [not_or, not_not, not_not] at matching
  have present : record.leaseExpiresAt.isSome = true := by
    rw [lease.expiry, ← lease.token, matching.2]
    rfl
  obtain ⟨expiresAt, expiry⟩ := Option.isSome_iff_exists.mp present
  split at accepted
  · cases accepted
  next current =>
    refine ⟨record, expiresAt, found, matching.1, matching.2, expiry, ?_⟩
    simpa [expiry] using current

theorem refusal_of_stale (agreement : Agreement inner.ledger)
    (stale : ¬ inner.HoldsLease claim now) : inner.records.get claim.runId = none ∨
      ∃ record error, inner.records.get claim.runId = some record ∧ record.runId = claim.runId ∧
        ensureActiveLease record claim now = .error error := by
  cases found : inner.records.get claim.runId with
  | none => exact .inl rfl
  | some record =>
    right
    cases verdict : ensureActiveLease record claim now with
    | error error => exact ⟨record, error, rfl, agreement.keyed found, verdict⟩
    | ok => exact absurd (holdsLease_of_accepted found (agreement.lease found) verdict) stale

theorem LeaseCall.refused (env : StoreEnv) (agreement : Agreement inner.ledger)
    (settled : inner.Settled) (stale : ¬ inner.HoldsLease claim now) (call : LeaseCall) :
    ∃ error, call.perform env now claim inner = (.error error, inner) := by
  have unpruned := Inner.pruneTerminalRecords_of_settled settled
  cases call
  all_goals
    simp only [perform, Inner.heartbeat, Inner.recordModelRouteSnapshot, Inner.blockRun,
      Inner.completeRun, Inner.cancelRun, Inner.failRun, Inner.terminalTransition,
      Inner.cancelCompletionTransition, Inner.recordRunnerFailure, Inner.relinquishRun,
      Inner.applyValidatedLoopExit, Inner.commitTransition, Inner.putBack, Inner.withLease,
      Inner.putBackPruned]
    rcases refusal_of_stale agreement stale with missing | ⟨_, error, found, keyed, refused⟩
    · exact ⟨.scopeNotFound, by rw [missing]; rfl⟩
    · have restored := Inner.insertRecord_removeRecord found keyed
      exact ⟨error, by simp only [found, refused, restored, unpruned]; rfl⟩

namespace turnStore

/-- In every reachable state a record carries a lease exactly while its run is owned,
and every call without the current lease fails and changes nothing. -/
theorem leases_are_exclusive (env : StoreEnv) {inner : Inner}
    (reached : (turnStore env).Reachable System.anyStep inner) :
    (∀ runId record, inner.records.get runId = some record → record.LeaseShape) ∧
      ∀ (call : LeaseCall) (now : TurnTimestamp) (claim : LeaseClaim),
        ¬ inner.HoldsLease claim now →
        ∃ error, call.perform env now claim inner = (.error error, inner) := by
  refine ⟨fun _ _ found => (agreement reached).lease found, ?_⟩
  intro call now claim stale
  exact call.refused env (agreement reached) (settled reached) stale

/-- The claimed run carries its lease; a heartbeat with another token is refused. -/
theorem stale_heartbeat_is_refused :
    (∃ record, claimedStore.records.get ⟨1⟩ = some record ∧ record.LeaseShape ∧
      record.leaseToken = some ⟨8⟩) ∧
      ∃ error, LeaseCall.heartbeat.perform sampleEnv 0 ⟨⟨1⟩, ⟨7⟩, ⟨9⟩⟩ claimedStore =
        (.error error, claimedStore) := by
  have facts := leases_are_exclusive sampleEnv claimedStore_reachable
  obtain ⟨record, found, current⟩ := (Option.any_eq_true
    (fun record => record.leaseToken = some ⟨8⟩) (claimedStore.records.get ⟨1⟩)).mp (by decide)
  have current := of_decide_eq_true current
  refine ⟨⟨record, found, facts.1 ⟨1⟩ record found, current⟩, facts.2 .heartbeat 0 _ ?_⟩
  rintro ⟨_, _, foundOther, _, token, _⟩
  rw [← Option.some.inj (found.symm.trans foundOther), current] at token
  cases token

end turnStore

end Ironclaw.Turns
