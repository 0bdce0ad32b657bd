import Ironclaw.Turns.Ledger
import Ironclaw.Turns.Snapshot

/-!
# The run roster

The ledger together with the books the store keeps beside it: the turns its runs
belong to, the queue of runs that wait for a runner, the admission reservations and
the counters of the concurrency limiter.  The moves say what happens to each book
when a run is opened, written again or dropped, so that an invariant of a book is a
case analysis over four moves.
-/

namespace Ironclaw.Turns

open Lib Table RunRecord StatusTransition Option

/-- Apply the receipt of a status change to the counters. -/
def ConcurrencyLimiter.follow (limiter : ConcurrencyLimiter) (transition : StatusTransition)
    (info : RunSlotInfo) : ConcurrencyLimiter :=
  match transition with
  | .enteredRunning => limiter.onEnterRunning info
  | .leftRunning => limiter.onLeaveRunning info
  | .unchanged => limiter

theorem StatusTransition.between_self (status : TurnStatus) :
    between status status = .unchanged := by
  cases status <;> rfl

structure RunRecord.SameRun (record changed : RunRecord) : Prop where
  turnId : changed.turnId = record.turnId := by rfl
  scope : changed.scope = record.scope := by rfl
  actor : changed.actor = record.actor := by rfl
  profile : changed.profile = record.profile := by rfl
  productContext : changed.productContext = record.productContext := by rfl

variable {record : RunRecord}

theorem RunRecord.SameRun.slotInfo {changed : RunRecord} (same : record.SameRun changed) :
    slotInfoFor changed = slotInfoFor record := by
  unfold slotInfoFor
  rw [same.scope, same.actor, same.productContext]

def RunRecord.isQueued (record : RunRecord) : Bool := decide (record.status = .queued)

theorem RunRecord.isQueued_eq_false (other : record.status ≠ .queued) : record.isQueued = false :=
  decide_eq_false other

structure Roster extends Ledger where
  turns : Table TurnId TurnRecord
  queuedRuns : List TurnRunId
  admissionReservations : Table TurnRunId TurnAdmissionReservationRecord
  concurrency : ConcurrencyLimiter

def Inner.roster (inner : Inner) : Roster where
  toLedger := inner.ledger
  turns := inner.turns
  queuedRuns := inner.queuedRuns
  admissionReservations := inner.admissionReservations
  concurrency := inner.concurrency

/-- What an operation may open a run with: the scope, the turn identifier it draws (a
retry draws none) and the limits it asks for. -/
structure Opening where
  scope : TurnScope
  drawnTurn : Option TurnId
  limitFor : TurnAdmissionBucket → Except Unit TurnAdmissionLimit

namespace Ledger

/-- A live run is written again, with its lock or without one. -/
inductive Rewrites (before after : Ledger) (previous record : RunRecord) : Prop where
  | update {held lock : TurnActiveLockRecord}
      (updates : Updates before after previous record held lock) (key : lock.key = held.key)
  | close (closes : Closes before after previous record)

namespace Rewrites

variable {before after : Ledger} {previous record : RunRecord}

variable (rewrites : Rewrites before after previous record)
include rewrites

theorem step : RunStep before after := by
  cases rewrites with
  | update updates => exact .update updates
  | close closes => exact .close closes

theorem found : before.records.get record.runId = some previous := by
  cases rewrites with
  | update updates => exact updates.found
  | close closes => exact closes.found

theorem wasLive : previous.status.isTerminal = false := by
  cases rewrites with
  | update updates => exact updates.wasLive
  | close closes => exact closes.wasLive

theorem records : after.records = before.records.insert record.runId record := by
  cases rewrites with
  | update updates => exact updates.records
  | close closes => exact closes.records

end Rewrites

end Ledger

namespace Roster

/-! ## Moves -/

/-- How the books follow when a live run is written again. -/
structure Books (before after : Roster) (previous record : RunRecord) : Prop where
  same : previous.SameRun record
  turns : after.turns = before.turns
  queue : ∀ runId, after.queuedRuns.count runId =
    if runId = record.runId then record.isQueued.toNat else before.queuedRuns.count runId
  admission : after.admissionReservations = if record.status.isTerminal then
      before.admissionReservations.modify record.runId fun reservation =>
        { reservation with released := true }
    else before.admissionReservations
  slots : after.concurrency =
    before.concurrency.follow (.between previous.status record.status) (slotInfoFor record)
  capped : between previous.status record.status = .enteredRunning →
    before.concurrency.canClaim (slotInfoFor record) = true

/-- An ended run is dropped.  Its turn goes with it unless another run still names the
turn; `leaks` says that the turn may stay behind. -/
structure Drops (leaks : Prop) (before after : Roster) (record : RunRecord) (runId : TurnRunId) :
    Prop where
  ledger : Ledger.Evicts before.toLedger after.toLedger record runId
  turns : (after.turns = before.turns.remove record.turnId ∧
      ∀ other candidate, after.records.get other = some candidate →
        candidate.turnId ≠ record.turnId) ∨
    (after.turns = before.turns ∧
      (leaks ∨ ∃ other candidate, after.records.get other = some candidate ∧
        candidate.turnId = record.turnId))
  queue : after.queuedRuns = before.queuedRuns
  admission : after.admissionReservations = before.admissionReservations.remove runId
  slots : after.concurrency = before.concurrency

/-- The moves of runs that exist. -/
inductive Step (leaks : Prop) (before after : Roster) : Prop where
  | rewrite {previous record : RunRecord}
      (ledger : Ledger.Rewrites before.toLedger after.toLedger previous record)
      (books : Books before after previous record)
  | drop {record : RunRecord} {runId : TurnRunId} (drops : Drops leaks before after record runId)
  /-- A scan of the queue that takes nothing out. -/
  | shuffle (queue : List TurnRunId) (same : ∀ runId, queue.count runId =
      before.queuedRuns.count runId) (after_eq : after = { before with queuedRuns := queue })

abbrev Steps (leaks : Prop) := Relation.ReflTransGen (Step leaks)

/-- How many unreleased reservations name the bucket. -/
def activeAdmissionCount (roster : Roster) (bucket : TurnAdmissionBucket) : Nat :=
  roster.admissionReservations.countValues fun reservation =>
    !reservation.released && reservation.buckets.contains bucket

/-- Every bucket of the run was given a limit, and the limit leaves room for one more. -/
def RoomFor (limitFor : TurnAdmissionBucket → Except Unit TurnAdmissionLimit) (roster : Roster)
    (record : RunRecord) : Prop :=
  ∀ bucket ∈ record.canonicalReservation.buckets, ∃ limit, limitFor bucket = .ok limit ∧
    ∀ maxActive, limit.maxActive = some maxActive → roster.activeAdmissionCount bucket < maxActive

/-- A new queued run, on a turn drawn for it or on the turn of an earlier run. -/
structure Opens (opening : Opening) (before after : Roster) (record : RunRecord)
    (lock : TurnActiveLockRecord) : Prop where
  ledger : Ledger.Opens before.toLedger after.toLedger record lock
  key : lock.key = ⟨record.scope⟩ := by rfl
  scope : opening.scope = record.scope
  queued : record.status = .queued := by rfl
  turns : (∃ turn : TurnRecord, opening.drawnTurn = some turn.turnId ∧
      turn.turnId = record.turnId ∧ turn.actor = record.actor ∧
      after.turns = before.turns.insert turn.turnId turn) ∨
    (after.turns = before.turns ∧ ∃ other sibling, before.records.get other = some sibling ∧
      sibling.turnId = record.turnId ∧ sibling.actor = record.actor)
  queue : after.queuedRuns = before.queuedRuns ++ [record.runId] := by rfl
  admission : after.admissionReservations =
    before.admissionReservations.insert record.runId record.canonicalReservation := by rfl
  room : RoomFor opening.limitFor before record
  slots : after.concurrency = before.concurrency := by rfl

inductive Move (leaks : Prop) (opening? : Option Opening) (before after : Roster) : Prop where
  | opened (opening : Opening) (given : opening? = some opening) (record : RunRecord)
      (lock : TurnActiveLockRecord) (opens : Opens opening before after record lock)
  | moved (steps : Steps leaks before after)

theorem Move.refl (leaks : Prop) (opening? : Option Opening) (roster : Roster) :
    Move leaks opening? roster roster :=
  .moved .refl

/-! ## The ledger under the roster -/

variable {leaks : Prop} {before after : Roster}

theorem Step.ledger (step : Step leaks before after) :
    Ledger.RunSteps before.toLedger after.toLedger := by
  cases step with
  | rewrite ledger => exact .single ledger.step
  | drop drops => exact .single (.evict drops.ledger)
  | shuffle _ _ after_eq => rw [after_eq]

theorem Steps.ledger (steps : Steps leaks before after) :
    Ledger.RunSteps before.toLedger after.toLedger := by
  induction steps with
  | refl => exact .refl
  | tail _ last ih => exact ih.trans last.ledger

theorem Move.ledger {opening? : Option Opening} {expected : TurnScope → Prop}
    (move : Move leaks opening? before after)
    (wanted : ∀ opening, opening? = some opening → expected opening.scope) :
    Ledger.Move expected before.toLedger after.toLedger := by
  cases move with
  | opened opening given record lock opens =>
    exact .opened record lock opens.ledger (opens.scope ▸ wanted opening given)
  | moved steps => exact .moved steps.ledger

/-! ## An orderly roster -/

/-- Runs and locks agree, locks are stored under their keys, and the queue names every
queued run once and no other. -/
structure Orderly (roster : Roster) : Prop extends Ledger.Agreement roster.toLedger where
  lockKeyed : ∀ {key lock}, roster.activeLocks.get key = some lock → lock.key = key
  queue : ∀ runId, roster.queuedRuns.count runId =
    ((roster.records.get runId).any isQueued).toNat

namespace Orderly

variable {roster : Roster} {runId : TurnRunId}

theorem count_of_get (orderly : roster.Orderly) (found : roster.records.get runId = some record) :
    roster.queuedRuns.count runId = record.isQueued.toNat := by
  rw [orderly.queue, found, any_some]

theorem queued_of_mem (orderly : roster.Orderly) (listed : runId ∈ roster.queuedRuns) :
    ∃ record, roster.records.get runId = some record ∧ record.status = .queued := by
  have counted := orderly.queue runId
  have positive := List.count_pos_iff.mpr listed
  cases waiting : (roster.records.get runId).any isQueued with
  | false =>
    rw [waiting, Bool.toNat_false] at counted
    omega
  | true =>
    obtain ⟨record, found, queued⟩ := (any_eq_true _ _).mp waiting
    exact ⟨record, found, of_decide_eq_true queued⟩

variable {lock : TurnActiveLockRecord}

variable (orderly : before.Orderly)
include orderly

theorem lockKeyed_rewrites {previous : RunRecord}
    (rewrites : Ledger.Rewrites before.toLedger after.toLedger previous record)
    {key : TurnActiveLockKey} (stored : after.activeLocks.get key = some lock) :
    lock.key = key := by
  cases rewrites with
  | update updates sameKey =>
    rw [updates.activeLocks, get_insert] at stored
    split at stored
    next own => rw [← some.inj stored, sameKey, orderly.lockKeyed updates.locked, own]
    · exact orderly.lockKeyed stored
  | close closes =>
    rw [closes.activeLocks] at stored
    exact orderly.lockKeyed (get_of_remove stored)

theorem lockKeyed_step (step : Step leaks before after) {key : TurnActiveLockKey}
    (stored : after.activeLocks.get key = some lock) : lock.key = key := by
  cases step with
  | rewrite ledger => exact orderly.lockKeyed_rewrites ledger stored
  | drop drops =>
    rw [drops.ledger.activeLocks] at stored
    exact orderly.lockKeyed stored
  | shuffle _ _ after_eq =>
    subst after_eq
    exact orderly.lockKeyed stored

theorem step (step : Step leaks before after) : after.Orderly := by
  refine ⟨orderly.toAgreement.steps step.ledger, orderly.lockKeyed_step step, ?_⟩
  intro runId
  cases step with
  | rewrite ledger books =>
    rw [books.queue, ledger.records, get_insert]
    split
    · rfl
    · exact orderly.queue runId
  | @drop record _ drops =>
    rw [drops.queue, orderly.queue, drops.ledger.records, get_remove]
    split
    next same =>
      have idle : record.isQueued = false := by
        apply isQueued_eq_false
        intro queued
        have ended := drops.ledger.ended
        rw [queued] at ended
        cases ended
      rw [same, drops.ledger.found, any_some, idle, any_none]
    · rfl
  | shuffle _ same after_eq =>
    subst after_eq
    exact (same runId).trans (orderly.queue runId)

theorem opens {opening : Opening} (opens : Opens opening before after record lock) :
    after.Orderly := by
  refine ⟨orderly.toAgreement.write opens.ledger.writes, ?_, ?_⟩
  · intro _ _ held
    rw [opens.ledger.activeLocks, get_insert] at held
    split at held
    next own => rw [← some.inj held, opens.key, own]
    · exact orderly.lockKeyed held
  intro runId
  rw [opens.queue, opens.ledger.records, get_insert, List.count_append]
  by_cases same : runId = record.runId
  · have queued : record.isQueued = true := decide_eq_true opens.queued
    rw [same, orderly.queue, opens.ledger.fresh]
    simp [queued]
  · rw [orderly.queue]
    simp [same, Ne.symm same]

theorem steps (steps : Steps leaks before after) : after.Orderly := by
  induction steps with
  | refl => exact orderly
  | tail _ last ih => exact ih.step last

theorem move {opening? : Option Opening} (move : Move leaks opening? before after) :
    after.Orderly := by
  cases move with
  | opened _ _ _ _ opened => exact orderly.opens opened
  | moved steps => exact orderly.steps steps

end Orderly

end Roster

end Ironclaw.Turns
