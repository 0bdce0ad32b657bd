import Ironclaw.Turns.Locks
import Ironclaw.Turns.RunChanges

/-!
# Cancelling a run

A first request to cancel a run ends it or asks its runner to stop, whatever the status of the
run, with one exception: a run that waits for an external tool is reported as ended and stays
as it is.  A repeated request is answered from memory.
-/

namespace Ironclaw.Turns

open Lib Turns.Inner

namespace Inner

/-- What a caller reads off the answer: the run has stopped or is asked to stop, and the flag
tells whether it had ended before. -/
structure CancelTakesEffect (before after : Inner) (runId : TurnRunId)
    (response : CancelRunResponse) : Prop where
  stopped : ∀ record, after.records.get runId = some record →
    record.status.isTerminal = true ∨ record.status = .cancelRequested
  flagged : response.alreadyTerminal =
    (before.records.get runId).any fun record => record.status.isTerminal

/-- The call finds a run it can stop.  An answer in memory that tells of an ended run must
find the run kept and ended; one that tells of a cancellation must find it not stopped yet. -/
def CancelFits (inner : Inner) (request : CancelRunRequest) : Prop :=
  match inner.cancelIdempotency.get ⟨request.scope, request.runId, request.idempotencyKey⟩ with
  | none => ∀ record, inner.records.get request.runId = some record →
      record.scope = request.scope → record.actor = request.actor →
      record.status ≠ .blockedExternalTool
  | some (.error _) => True
  | some (.ok response) =>
    if response.alreadyTerminal then
      ∃ record, inner.records.get request.runId = some record ∧ record.status.isTerminal = true
    else ∀ record, inner.records.get request.runId = some record → record.status = .cancelRequested

variable {inner : Inner} {now : TurnTimestamp} {request : CancelRunRequest}

theorem cancelTarget_eq_none {status : TurnStatus} (live : status.isTerminal = false) :
    cancelTarget status = none ↔ status = .blockedExternalTool := by
  cases status <;> simp_all [cancelTarget, TurnStatus.isTerminal]

theorem cancelTakesEffect_replayed {runId : TurnRunId} {response : CancelRunResponse} :
    inner.CancelTakesEffect inner runId response ↔
      if response.alreadyTerminal then
        ∃ record, inner.records.get runId = some record ∧ record.status.isTerminal = true
      else ∀ record, inner.records.get runId = some record → record.status = .cancelRequested := by
  constructor
  · rintro ⟨stopped, flagged⟩
    cases found : inner.records.get runId <;> cases flag : response.alreadyTerminal <;>
      simp_all
  · intro fits
    constructor <;> cases found : inner.records.get runId <;>
      cases flag : response.alreadyTerminal <;> simp_all [TurnStatus.isTerminal]

theorem get_pruned_insertRecord {runId : TurnRunId} {record found : RunRecord}
    (stored : (inner.insertRecord runId record).pruneTerminalRecords.records.get runId =
      some found) : found = record := by
  have kept := pruneTerminalRecords_changed (fun _ _ => False) (inner.insertRecord runId record)
    runId found stored
  rcases kept with kept | impossible
  · rw [insertRecord, Table.get_insert_self] at kept
    exact (Option.some.inj kept).symm
  · exact impossible.elim

/-- What a first request does to a run its caller may cancel. -/
theorem requestCancelOnce_spec (now : TurnTimestamp) {record : RunRecord}
    (keyed : record.runId = request.runId)
    (found : inner.records.get request.runId = some record) (scope : record.scope = request.scope)
    (actor : record.actor = request.actor) :
    ∃ response, (inner.requestCancelOnce now request).1 = .ok response ∧ response.alreadyTerminal =
        (record.status.isTerminal || decide (record.status = .blockedExternalTool)) ∧
      ∀ after, (inner.requestCancelOnce now request).2.records.get request.runId = some after →
        after.status = record.status ∧ response.alreadyTerminal = true ∨
          after.status.isTerminal = true ∨ after.status = .cancelRequested := by
  unfold requestCancelOnce
  rw [found]
  simp only [scope, actor, ne_eq, not_true_eq_false, if_false]
  split
  next ended =>
    refine ⟨_, rfl, by simp [cancelResponse, ended], fun after stored => .inl ⟨?_, rfl⟩⟩
    rw [keyed] at stored
    rw [get_pruned_insertRecord stored]
  next live =>
    rw [Bool.not_eq_true] at live
    cases chosen : cancelTarget record.status with
    | none =>
      refine ⟨_, rfl, ?_, fun after stored => .inl ⟨?_, rfl⟩⟩
      · simp [cancelResponse, (cancelTarget_eq_none live).mp chosen]
      · rw [keyed] at stored
        rw [get_pruned_insertRecord stored]
    | some target =>
      have stoppable : record.status ≠ .blockedExternalTool := fun waits => by
        rw [(cancelTarget_eq_none live).mpr waits] at chosen
        cases chosen
      obtain ⟨nextStatus, _⟩ := target
      dsimp only
      split
      · rename_i ended
        refine ⟨_, rfl, by simp [cancelResponse, live, stoppable], fun after stored => ?_⟩
        rw [show (cancelledRecord record nextStatus _).runId = request.runId from keyed] at stored
        rw [get_pruned_insertRecord stored]
        exact .inr (.inl ended)
      · rename_i alive
        refine ⟨_, rfl, by simp [cancelResponse, live, stoppable], fun after stored => ?_⟩
        rw [show (cancelRequestedRecord record nextStatus _).runId = request.runId from keyed]
          at stored
        rw [get_pruned_insertRecord stored]
        rcases (spec_of_cancelTarget chosen).2 with ⟨ended, _⟩ | ⟨asked, _⟩
        · exact absurd ended alive
        · exact .inr (.inr asked)

/-- A request that the run's scope or actor does not match is refused. -/
theorem requestCancelOnce_matches {response : CancelRunResponse}
    (ok : (inner.requestCancelOnce now request).1 = .ok response) :
    ∃ record, inner.records.get request.runId = some record ∧ record.scope = request.scope ∧
      record.actor = request.actor := by
  unfold requestCancelOnce at ok
  cases found : inner.records.get request.runId with
  | none =>
    rw [found] at ok
    cases ok
  | some record =>
    rw [found] at ok
    dsimp only at ok
    by_cases scope : record.scope = request.scope
    · by_cases actor : record.actor = request.actor
      · exact ⟨record, rfl, scope, actor⟩
      · rw [if_neg (not_not_intro scope), if_pos actor] at ok
        cases ok
    · rw [if_pos scope] at ok
      cases ok

end Inner

namespace turnStore

variable {env : StoreEnv} {guard : Inner → StoreOp → Prop} {inner : Inner}

/-- A call takes effect exactly when it finds a run that it can stop, or is answered by
memory as the run still is. -/
theorem cancel_takes_effect_iff (reached : (turnStore env).Reachable guard inner)
    (now : TurnTimestamp) (request : CancelRunRequest) :
    (∀ response, (inner.requestCancel now request).1 = .ok response →
      inner.CancelTakesEffect (inner.requestCancel now request).2 request.runId response) ↔
    inner.CancelFits request := by
  unfold Inner.CancelFits
  cases remembered : inner.cancelIdempotency.get
      ⟨request.scope, request.runId, request.idempotencyKey⟩ with
  | some answer =>
    have call : inner.requestCancel now request = (answer, inner) := by
      simp only [requestCancel, remembered]
    rw [call]
    cases answer with
    | error => exact ⟨fun _ => trivial, nofun⟩
    | ok response =>
      constructor
      · exact fun effect => cancelTakesEffect_replayed.mp (effect response rfl)
      · rintro fits _ ⟨⟩
        exact cancelTakesEffect_replayed.mpr fits
  | none =>
    have call : (inner.requestCancel now request).1 = (inner.requestCancelOnce now request).1 ∧
        (inner.requestCancel now request).2.records =
          (inner.requestCancelOnce now request).2.records := by
      simp only [requestCancel, remembered, true_and]
      rfl
    rw [call.1]
    constructor
    · intro effect record found scope actor waits
      obtain ⟨response, ok, flag, _⟩ := requestCancelOnce_spec now
        ((orderly reached).keyed found) found scope actor
      have flagged := (effect response ok).flagged
      rw [flag, found, Option.any_some, waits] at flagged
      cases flagged
    · intro fits response ok
      obtain ⟨record, found, scope, actor⟩ := requestCancelOnce_matches ok
      obtain ⟨_, answered, flag, after⟩ := requestCancelOnce_spec now
        ((orderly reached).keyed found) found scope actor
      rw [ok] at answered
      cases answered
      have stoppable := fits record found scope actor
      refine ⟨fun later stored => ?_, ?_⟩
      · rw [call.2] at stored
        rcases after later stored with ⟨same, ended⟩ | stopped
        · rw [flag] at ended
          rw [same]
          exact .inl (by simpa [stoppable] using ended)
        · exact stopped
      · rw [flag, found]
        simp [stoppable]

/-! ## A run that waits for an external tool -/

def cancelFirst : CancelRunRequest :=
  ⟨sampleScope .actorFallback, ⟨⟨"user"⟩⟩, ⟨1⟩, .userRequested, ⟨"cancel"⟩⟩

/-- A runner is asked to stop. -/
theorem cancel_asks_runner : ∃ response,
    (claimedStore.requestCancel 0 cancelFirst).1 = .ok response ∧
      claimedStore.CancelTakesEffect (claimedStore.requestCancel 0 cancelFirst).2 ⟨1⟩ response := by
  refine ⟨_, rfl, (cancel_takes_effect_iff claimedStore_reachable 0 cancelFirst).mpr ?_ _ rfl⟩
  intro record found _ _ waits
  have running : (claimedStore.records.get ⟨1⟩).any
      (fun record => record.status = .blockedExternalTool) = false := by decide
  rw [show claimedStore.records.get ⟨1⟩ = some record from found] at running
  simp [waits] at running

def waitingForTool : Inner :=
  (StoreOp.blockRun 0 ⟨⟨⟨1⟩, ⟨7⟩, ⟨8⟩⟩, ⟨5⟩, ⟨"state"⟩, .externalTool ⟨"gate"⟩⟩).apply sampleEnv
    claimedStore

/-- The cancellation is answered as if the run had ended, and the run goes on waiting. -/
theorem cancel_leaves_tool_waiting :
    (turnStore sampleEnv).Reachable System.anyStep waitingForTool ∧ ∃ response,
      (waitingForTool.requestCancel 0 cancelFirst).1 = .ok response ∧
        response.alreadyTerminal = true ∧
        ((waitingForTool.requestCancel 0 cancelFirst).2.records.get ⟨1⟩).any
          (fun record => record.status = .blockedExternalTool) = true ∧
        ¬ waitingForTool.CancelTakesEffect (waitingForTool.requestCancel 0 cancelFirst).2 ⟨1⟩
          response := by
  refine ⟨.next claimedStore_reachable trivial ⟨?_, rfl⟩, _, rfl, rfl, by decide, ?_⟩
  · trivial
  · intro effect
    exact absurd effect.flagged (by decide)

end turnStore

end Ironclaw.Turns
