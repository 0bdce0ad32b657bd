import Ironclaw.Turns.Store

/-!
# The run ledger

What the turn store is for, without its bookkeeping: a table of runs and a table of
active locks.  A run is opened together with its lock, changed together with its
lock, ended by giving the lock up, and evicted only after it has ended.  The
agreement of the two tables is an invariant of these moves.
-/

namespace Ironclaw.Turns

open Lib Table Option

/-- A runner, a token and an expiry are recorded exactly while a runner owns the
run. -/
structure RunRecord.LeaseShape (record : RunRecord) : Prop where
  runner : record.runnerId.isSome = holdsRunningSlot record.status
  token : record.leaseToken.isSome = holdsRunningSlot record.status
  expiry : record.leaseExpiresAt.isSome = holdsRunningSlot record.status

variable {record : RunRecord}

theorem RunRecord.LeaseShape.of_absent
    (idle : holdsRunningSlot record.status = false) (runner : record.runnerId = none)
    (token : record.leaseToken = none) (expiry : record.leaseExpiresAt = none) :
    record.LeaseShape := by
  constructor <;> simp [idle, runner, token, expiry]

theorem RunRecord.LeaseShape.carried {changed : RunRecord} (lease : record.LeaseShape)
    (slot : holdsRunningSlot changed.status = holdsRunningSlot record.status)
    (runner : changed.runnerId = record.runnerId) (token : changed.leaseToken = record.leaseToken)
    (expiry : changed.leaseExpiresAt = record.leaseExpiresAt) : changed.LeaseShape where
  runner := by rw [runner, slot, lease.runner]
  token := by rw [token, slot, lease.token]
  expiry := by rw [expiry, slot, lease.expiry]

structure Ledger where
  records : Table TurnRunId RunRecord
  activeLocks : Table TurnActiveLockKey TurnActiveLockRecord

def Inner.ledger (inner : Inner) : Ledger := ⟨inner.records, inner.activeLocks⟩

namespace Ledger

structure Updates (before after : Ledger) (previous record : RunRecord)
    (held lock : TurnActiveLockRecord) : Prop where
  found : before.records.get record.runId = some previous
  scope : record.scope = previous.scope
  wasLive : previous.status.isTerminal = false
  live : record.status.isTerminal = false
  lease : record.LeaseShape
  locked : before.activeLocks.get ⟨record.scope⟩ = some held
  owner : lock.runId = record.runId
  status : lock.status = record.status
  version : held.lockVersion.value ≤ lock.lockVersion.value
  records : after.records = before.records.insert record.runId record
  activeLocks : after.activeLocks = before.activeLocks.insert ⟨record.scope⟩ lock

structure Closes (before after : Ledger) (previous record : RunRecord) : Prop where
  found : before.records.get record.runId = some previous
  scope : record.scope = previous.scope
  wasLive : previous.status.isTerminal = false
  ended : record.status.isTerminal = true
  lease : record.LeaseShape
  records : after.records = before.records.insert record.runId record
  activeLocks : after.activeLocks = before.activeLocks.remove ⟨record.scope⟩

structure Evicts (before after : Ledger) (record : RunRecord) (runId : TurnRunId) : Prop where
  found : before.records.get runId = some record
  ended : record.status.isTerminal = true
  records : after.records = before.records.remove runId
  activeLocks : after.activeLocks = before.activeLocks

/-- The moves of runs that exist. -/
inductive RunStep : Ledger → Ledger → Prop where
  | update {before after : Ledger} {previous record : RunRecord}
      {held lock : TurnActiveLockRecord}
      (updates : Updates before after previous record held lock) : RunStep before after
  | close {before after : Ledger} {previous record : RunRecord}
      (closes : Closes before after previous record) : RunStep before after
  | evict {before after : Ledger} {record : RunRecord} {runId : TurnRunId}
      (evicts : Evicts before after record runId) : RunStep before after

abbrev RunSteps := Relation.ReflTransGen RunStep

/-- A new run takes the free lock of its scope. -/
structure Opens (before after : Ledger) (record : RunRecord) (lock : TurnActiveLockRecord) :
    Prop where
  fresh : before.records.get record.runId = none
  free : before.activeLocks.get ⟨record.scope⟩ = none
  live : record.status.isTerminal = false
  lease : record.LeaseShape
  owner : lock.runId = record.runId
  status : lock.status = record.status
  records : after.records = before.records.insert record.runId record
  activeLocks : after.activeLocks = before.activeLocks.insert ⟨record.scope⟩ lock

/-- One operation of the store: it opens a run on an expected scope, or it moves
existing runs. -/
inductive Move (expected : TurnScope → Prop) (before after : Ledger) : Prop where
  | opened (record : RunRecord) (lock : TurnActiveLockRecord)
      (opens : Opens before after record lock) (wanted : expected record.scope)
  | moved (steps : RunSteps before after)

/-! ## Agreement of runs and locks -/

/-- Every run is stored under its identifier with the lease its status calls for;
live runs and locks name each other. -/
structure Agreement (ledger : Ledger) : Prop where
  keyed : ∀ {runId record}, ledger.records.get runId = some record → record.runId = runId
  lease : ∀ {runId record}, ledger.records.get runId = some record → record.LeaseShape
  lockOfRun : ∀ {runId record}, ledger.records.get runId = some record →
    record.status.isTerminal = false →
    ∃ lock, ledger.activeLocks.get ⟨record.scope⟩ = some lock ∧ lock.runId = runId ∧
      lock.status = record.status
  runOfLock : ∀ {key lock}, ledger.activeLocks.get key = some lock →
    ∃ record, ledger.records.get lock.runId = some record ∧
      record.status.isTerminal = false ∧ key = ⟨record.scope⟩

variable {lock : TurnActiveLockRecord}

namespace Agreement

theorem owner_of_scope {ledger : Ledger} (agreement : Agreement ledger) {runId : TurnRunId}
    (found : ledger.records.get runId = some record) (live : record.status.isTerminal = false)
    (held : ledger.activeLocks.get ⟨record.scope⟩ = some lock) : lock.runId = runId := by
  obtain ⟨own, ownHeld, owner, _⟩ := agreement.lockOfRun found live
  rw [held] at ownHeld
  rw [some.inj ownHeld, owner]

end Agreement

/-- One run and the lock of its scope are written together.  The lock was free or the
run's own, and it is kept exactly if the run goes on. -/
structure Writes (before after : Ledger) (record : RunRecord)
    (lock? : Option TurnActiveLockRecord) : Prop where
  mine : ∀ lock, before.activeLocks.get ⟨record.scope⟩ = some lock → lock.runId = record.runId
  stays : ∀ previous, before.records.get record.runId = some previous →
    previous.status.isTerminal = false → previous.scope = record.scope
  lease : record.LeaseShape
  paired : match lock? with
    | none => record.status.isTerminal = true
    | some lock => record.status.isTerminal = false ∧ lock.runId = record.runId ∧
        lock.status = record.status
  records : after.records = before.records.insert record.runId record
  activeLocks : ∀ key, after.activeLocks.get key =
    if key = ⟨record.scope⟩ then lock? else before.activeLocks.get key

theorem Updates.writes {previous : RunRecord}
    {held : TurnActiveLockRecord} (updates : Updates before after previous record held lock)
    (agreement : Agreement before) : Writes before after record (some lock) where
  mine := by
    intro _ otherHeld
    rw [updates.scope] at otherHeld
    exact agreement.owner_of_scope updates.found updates.wasLive otherHeld
  stays := by
    intro _ found _
    rw [updates.found] at found
    rw [← some.inj found, updates.scope]
  __ := updates
  paired := ⟨updates.live, updates.owner, updates.status⟩
  activeLocks := by
    intro _
    rw [updates.activeLocks, get_insert]

theorem Closes.writes {previous : RunRecord}
    (closes : Closes before after previous record) (agreement : Agreement before) :
    Writes before after record none where
  mine := by
    intro _ otherHeld
    rw [closes.scope] at otherHeld
    exact agreement.owner_of_scope closes.found closes.wasLive otherHeld
  stays := by
    intro _ found _
    rw [closes.found] at found
    rw [← some.inj found, closes.scope]
  __ := closes
  paired := closes.ended
  activeLocks := by
    intro _
    rw [closes.activeLocks, get_remove]

theorem Opens.writes
    (opens : Opens before after record lock) : Writes before after record (some lock) where
  mine := by
    intro _ held
    rw [opens.free] at held
    cases held
  stays := by
    intro _ found _
    rw [opens.fresh] at found
    cases found
  __ := opens
  paired := ⟨opens.live, opens.owner, opens.status⟩
  activeLocks := by
    intro _
    rw [opens.activeLocks, get_insert]

namespace Agreement

theorem write {lock? : Option TurnActiveLockRecord}
    (agreement : Agreement before) (writes : Writes before after record lock?) :
    Agreement after where
  keyed := by
    intro runId candidate found
    rw [writes.records, get_insert] at found
    split at found
    next same => rw [← some.inj found, same]
    · exact agreement.keyed found
  lease := by
    intro runId candidate found
    rw [writes.records, get_insert] at found
    split at found
    · rw [← some.inj found]
      exact writes.lease
    · exact agreement.lease found
  lockOfRun := by
    intro _ candidate found live
    rw [writes.records, get_insert] at found
    rw [writes.activeLocks]
    split at found
    next same =>
      have paired := writes.paired
      rw [← some.inj found] at live ⊢
      cases lock? with
      | none => simp [live] at paired
      | some lock => exact ⟨lock, by simp, by rw [paired.2.1, same], paired.2.2⟩
    next different =>
      obtain ⟨other, held, owner, status⟩ := agreement.lockOfRun found live
      refine ⟨other, ?_, owner, status⟩
      rw [if_neg ?_, held]
      intro sameKey
      rw [sameKey] at held
      exact different (owner.symm.trans (writes.mine other held))
  runOfLock := by
    intro _ _ held
    rw [writes.activeLocks] at held
    split at held
    next same =>
      have paired := writes.paired
      rw [held] at paired
      rw [paired.2.1]
      exact ⟨record, by simp [writes.records], paired.1, same⟩
    next different =>
      obtain ⟨candidate, found, live, atKey⟩ := agreement.runOfLock held
      refine ⟨candidate, ?_, live, atKey⟩
      rw [writes.records, get_insert_of_ne _ _ ?_, found]
      intro same
      rw [same] at found
      exact different (atKey.trans (congrArg TurnActiveLockKey.mk (writes.stays _ found live)))

theorem evict {runId : TurnRunId}
    (agreement : Agreement before) (evicts : Evicts before after record runId) :
    Agreement after where
  keyed := by
    intro other candidate found
    rw [evicts.records] at found
    exact agreement.keyed (get_of_remove found)
  lease := by
    intro other candidate found
    rw [evicts.records] at found
    exact agreement.lease (get_of_remove found)
  lockOfRun := by
    intro _ candidate found live
    rw [evicts.records] at found
    rw [evicts.activeLocks]
    exact agreement.lockOfRun (get_of_remove found) live
  runOfLock := by
    intro _ _ held
    rw [evicts.activeLocks] at held
    obtain ⟨candidate, found, live, atKey⟩ := agreement.runOfLock held
    refine ⟨candidate, ?_, live, atKey⟩
    rw [evicts.records, get_remove_of_ne _ ?_, found]
    intro same
    rw [same, evicts.found] at found
    rw [← some.inj found, evicts.ended] at live
    cases live

theorem step (agreement : Agreement before) (step : RunStep before after) : Agreement after := by
  cases step with
  | update updates => exact agreement.write (updates.writes agreement)
  | close closes => exact agreement.write (closes.writes agreement)
  | evict evicts => exact agreement.evict evicts

theorem steps (agreement : Agreement before) (steps : RunSteps before after) : Agreement after := by
  induction steps with
  | refl => exact agreement
  | tail _ last ih => exact ih.step last

end Agreement

end Ledger

end Ironclaw.Turns
