import Ironclaw.Turns.Inner

/-!
# Replay memory of the turn store

The four replay tables are bounded: each keeps its keys in arrival order and drops
the oldest ones.  Only the tables of this module's section change.
-/

namespace Ironclaw.Turns

open Lib

section

variable {κ ν : Type} [DecidableEq κ]

/-- First loop of `prune_ordered_map`: drop oldest keys until the map fits. -/
def dropOldest (maxLen : Nat) : List κ → Table κ ν → List κ → Table κ ν × List κ × List κ
  | [], map, removed => (map, [], removed)
  | key :: rest, map, removed =>
    if maxLen < map.keys.card then
      dropOldest maxLen rest (map.remove key)
        (if map.containsKey key then removed ++ [key] else removed)
    else (map, key :: rest, removed)

/-- `prune_ordered_map`: the bounded map, its order and the keys it lost. -/
def pruneOrderedMap (map : Table κ ν) (order : List κ) (maxLen : Nat) :
    Table κ ν × List κ × List κ :=
  let kept := dropOldest maxLen order map []
  (kept.1, kept.2.1.dropWhile (fun key => !kept.1.containsKey key), kept.2.2)

/-- Record a result under its key and prune. -/
def rememberOrdered (map : Table κ ν) (order : List κ) (key : κ) (result : ν) (maxLen : Nat) :
    Table κ ν × List κ × List κ :=
  pruneOrderedMap (map.insert key result)
    (if map.containsKey key then order else order ++ [key]) maxLen

end

namespace Inner

variable (inner : Inner)

def rememberPersistedIdempotency (record : TurnIdempotencyRecord) : Inner :=
  let key := persistedKeyForRecord record
  { inner with
    idempotencyRecordOrder :=
      if inner.idempotencyRecords.containsKey key then inner.idempotencyRecordOrder
      else inner.idempotencyRecordOrder ++ [key]
    idempotencyRecords := inner.idempotencyRecords.insert key record }

def removePersistedIdempotency (keys : List PersistedIdempotencyKey) : Inner :=
  { inner with idempotencyRecords := keys.foldl Table.remove inner.idempotencyRecords }

def pruneIdempotencyRecords : Inner :=
  let pruned := pruneOrderedMap inner.idempotencyRecords inner.idempotencyRecordOrder
    (inner.limits.maxIdempotencyRecords * 4)
  { inner with
    idempotencyRecords := pruned.1
    idempotencyRecordOrder := pruned.2.1 }

def rememberSubmitIdempotency (key : SubmitIdempotencyKey)
    (result : Except TurnError SubmitTurnResponse) (createdAt : TurnTimestamp) : Inner :=
  let inner := inner.rememberPersistedIdempotency (submitIdempotencyRecord key result createdAt)
  let kept := rememberOrdered inner.submitIdempotency inner.submitIdempotencyOrder key result
    inner.limits.maxIdempotencyRecords
  { inner with
    submitIdempotency := kept.1
    submitIdempotencyOrder := kept.2.1 }
    |>.removePersistedIdempotency (kept.2.2.map persistedSubmitKey)
    |>.pruneIdempotencyRecords

variable (key : RunIdempotencyKey)

def rememberResumeIdempotency
    (result : Except TurnError ResumeTurnResponse) (createdAt : TurnTimestamp) : Inner :=
  let inner := inner.rememberPersistedIdempotency (resumeIdempotencyRecord key result createdAt)
  let kept := rememberOrdered inner.resumeIdempotency inner.resumeIdempotencyOrder key result
    inner.limits.maxIdempotencyRecords
  { inner with
    resumeIdempotency := kept.1
    resumeIdempotencyOrder := kept.2.1 }
    |>.removePersistedIdempotency (kept.2.2.map (persistedRunKey .resume))
    |>.pruneIdempotencyRecords

/-- A busy thread or a refused admission is not replayed to a retry, and the
refused admission is not persisted either. -/
def rememberRetryIdempotency
    (result : Except TurnError RetryTurnResponse) (createdAt : TurnTimestamp) : Inner :=
  let persisted := inner.rememberPersistedIdempotency (retryIdempotencyRecord key result createdAt)
  match result with
  | .error (.admissionRejected _) => inner.pruneIdempotencyRecords
  | .error (.threadBusy _) => persisted.pruneIdempotencyRecords
  | _ =>
    let kept := rememberOrdered persisted.retryIdempotency persisted.retryIdempotencyOrder key
      result persisted.limits.maxIdempotencyRecords
    { persisted with
      retryIdempotency := kept.1
      retryIdempotencyOrder := kept.2.1 }
      |>.removePersistedIdempotency (kept.2.2.map (persistedRunKey .retry))
      |>.pruneIdempotencyRecords

def rememberCancelIdempotency
    (result : Except TurnError CancelRunResponse) (createdAt : TurnTimestamp) : Inner :=
  let inner := inner.rememberPersistedIdempotency (cancelIdempotencyRecord key result createdAt)
  let kept := rememberOrdered inner.cancelIdempotency inner.cancelIdempotencyOrder key result
    inner.limits.maxIdempotencyRecords
  { inner with
    cancelIdempotency := kept.1
    cancelIdempotencyOrder := kept.2.1 }
    |>.removePersistedIdempotency (kept.2.2.map (persistedRunKey .cancel))
    |>.pruneIdempotencyRecords

end Inner

end Ironclaw.Turns
