import Ironclaw.Turns.Frame

/-!
# The turn store refines the run roster

Every operation of the store is, on the roster, a sequence of run steps or the opening
of one run; on the ledger under it likewise.  The lemmas below follow the store's own
layers: bookkeeping helpers do not touch the roster, the shared tails of the
transitions are one step each, and the operations are case analyses over them.
-/

namespace Ironclaw.Turns

open Lib RunRecord Table StatusTransition Inner
open List

variable {inner : Inner}

namespace Inner

/-! ## Bookkeeping leaves the roster alone -/

section

variable (inner : Inner)

theorem roster_rememberRetryIdempotency (key : RunIdempotencyKey)
    (result : Except TurnError RetryTurnResponse) (createdAt : TurnTimestamp) :
    (inner.rememberRetryIdempotency key result createdAt).roster = inner.roster := by
  unfold rememberRetryIdempotency
  split <;> rfl

theorem roster_refuseSubmit (key : SubmitIdempotencyKey) (error : TurnError)
    (createdAt : TurnTimestamp) :
    (inner.refuseSubmit key error createdAt).2.roster = inner.roster := by
  unfold refuseSubmit
  split <;> rfl

theorem roster_claimSubmitIdempotency (key : SubmitIdempotencyKey) :
    (inner.claimSubmitIdempotency key).2.roster = inner.roster := by
  unfold claimSubmitIdempotency
  split
  · rfl
  · split <;> rfl

end

variable {runId : TurnRunId} {record : RunRecord}

theorem insertRecord_removeRecord
    (found : inner.records.get runId = some record) (keyed : record.runId = runId) :
    (inner.removeRecord runId).insertRecord record.runId record = inner := by
  unfold insertRecord removeRecord
  rw [keyed]
  simp only [insert_remove_self, insert_of_get found]

/-! ## The tails of the transitions -/

open Ledger

variable {after : Inner} {changed : RunRecord}

namespace Rewritten

variable (written : Rewritten inner after runId record changed)
include written

theorem modifies (agreement : Agreement inner.ledger) (wasLive : record.status.isTerminal = false)
    (live : changed.status.isTerminal = false) (lease : changed.LeaseShape)
    (change : TurnActiveLockRecord → TurnActiveLockRecord)
    (key : ∀ lock, (change lock).key = lock.key) (owner : ∀ lock, (change lock).runId = lock.runId)
    (status : ∀ lock, lock.status = record.status → (change lock).status = changed.status)
    (version : ∀ lock, lock.lockVersion.value ≤ (change lock).lockVersion.value)
    (activeLocks : after.activeLocks = inner.activeLocks.modify ⟨changed.scope⟩ fun lock =>
      if lock.runId = changed.runId then change lock else lock) :
    Ledger.Rewrites inner.ledger after.ledger record changed := by
  have keyed : changed.runId = runId := written.own.trans (agreement.keyed written.found)
  obtain ⟨held, locked, own, agrees⟩ := agreement.lockOfRun written.found wasLive
  have locked : inner.activeLocks.get ⟨changed.scope⟩ = some held := by
    rw [written.same.scope]
    exact locked
  have relocked : after.activeLocks = inner.activeLocks.insert ⟨changed.scope⟩ (change held) := by
    rw [activeLocks, modify_of_get _ locked, if_pos (own.trans keyed.symm)]
  exact .update {
    found := by rw [keyed]; exact written.found
    scope := written.same.scope
    wasLive
    live
    lease
    locked
    owner := by rw [owner, own, keyed]
    status := status held agrees
    version := version held
    records := by
      change after.records = inner.records.insert _ _
      rw [written.records, keyed, insert_remove_self]
    activeLocks := relocked } (key held)

theorem updates (agreement : Agreement inner.ledger) (wasLive : record.status.isTerminal = false)
    (live : changed.status.isTerminal = false) (lease : changed.LeaseShape)
    {updatedAt : TurnTimestamp}
    (locks : after.activeLocks = (inner.updateActiveLock changed updatedAt).activeLocks) :
    Ledger.Rewrites inner.ledger after.ledger record changed :=
  written.modifies agreement wasLive live lease (updatedLock changed updatedAt) (fun _ => rfl)
    (fun _ => rfl) (fun _ _ => rfl) (fun lock => le_saturatingAdd 1 lock.lockVersion.bounded) locks

theorem keeps (agreement : Agreement inner.ledger) (wasLive : record.status.isTerminal = false)
    (status : changed.status = record.status) (lease : changed.LeaseShape)
    (locks : after.activeLocks = inner.activeLocks ∨
      ∃ updatedAt, after.activeLocks = (inner.touchActiveLock changed updatedAt).activeLocks) :
    Ledger.Rewrites inner.ledger after.ledger record changed := by
  have live : changed.status.isTerminal = false := by rw [status, wasLive]
  rcases locks with same | ⟨updatedAt, touched⟩
  · obtain ⟨held, locked, _, _⟩ := agreement.lockOfRun written.found wasLive
    have locked : inner.activeLocks.get ⟨changed.scope⟩ = some held := by
      rw [written.same.scope]
      exact locked
    refine written.modifies agreement wasLive live lease id (fun _ => rfl) (fun _ => rfl)
      (fun _ agrees => agrees.trans status.symm) (fun _ => Nat.le_refl _) ?_
    rw [same, modify_of_get _ locked]
    simp only [id_eq, ite_self, insert_of_get locked]
  · exact written.modifies agreement wasLive live lease (touchedLock updatedAt) (fun _ => rfl)
      (fun _ => rfl) (fun _ agrees => agrees.trans status.symm) (fun _ => Nat.le_refl _) touched

end Rewritten

theorem Closed.releases (closed : Closed inner after runId record changed)
    (agreement : Agreement inner.ledger) :
    Ledger.Rewrites inner.ledger after.ledger record changed := by
  have keyed : changed.runId = runId := closed.own.trans (agreement.keyed closed.found)
  obtain ⟨held, locked, own, _⟩ := agreement.lockOfRun closed.found closed.wasLive
  have locked : inner.activeLocks.get ⟨changed.scope⟩ = some held := by
    rw [closed.same.scope]
    exact locked
  exact .close {
    found := by rw [keyed]; exact closed.found
    scope := closed.same.scope
    __ := closed
    lease := closed.lease (agreement.lease closed.found)
    records := by
      change after.records = inner.records.insert _ _
      rw [closed.records, keyed, insert_remove_self]
    activeLocks := by
      change after.activeLocks = inner.activeLocks.remove _
      rw [closed.locks]
      simp [releaseActiveLock, locked, own, keyed] }

/-! ### The books beside a rewritten run -/

section

variable {inner : Inner} (orderly : inner.roster.Orderly) {runId : TurnRunId}
  {record changed : RunRecord} (found : inner.records.get runId = some record)
  (same : changed.runId = record.runId)

include orderly found same

theorem queue_kept (waits : changed.isQueued = record.isQueued) (id : TurnRunId) :
    inner.queuedRuns.count id =
      if id = changed.runId then changed.isQueued.toNat else inner.queuedRuns.count id := by
  split
  next own =>
    rw [own, same, orderly.keyed found, waits]
    exact orderly.count_of_get found
  · rfl

theorem queue_pushed (idle : record.isQueued = false) (waits : changed.isQueued = true)
    (id : TurnRunId) : (inner.queuedRuns ++ [changed.runId]).count id =
      if id = changed.runId then changed.isQueued.toNat else inner.queuedRuns.count id := by
  rw [count_append]
  split
  next own =>
    have absent : inner.queuedRuns.count runId = 0 := by
      have counted := orderly.count_of_get found
      rwa [idle] at counted
    rw [own, waits, same, orderly.keyed found, absent]
    simp
  next other => simp [Ne.symm other]

omit found same orderly in
theorem queue_removed (idle : changed.isQueued = false) (id : TurnRunId) :
    (inner.queuedRuns.filter (· ≠ changed.runId)).count id =
      if id = changed.runId then changed.isQueued.toNat else inner.queuedRuns.count id := by
  split
  next own =>
    rw [own, idle, Bool.toNat_false, count_eq_zero]
    simp
  next other => exact count_filter (by simpa using other)

end

theorem isQueued_of_isTerminal (ended : record.status.isTerminal = true) :
    record.isQueued = false := by
  apply isQueued_eq_false
  intro queued
  rw [queued] at ended
  cases ended

open Roster

variable {leaks : Prop}

/-! ## Pruning -/

theorem pruneTerminalRecord_steps (inner : Inner) (runId : TurnRunId) :
    Steps leaks inner.roster (inner.pruneTerminalRecord runId).roster := by
  unfold pruneTerminalRecord
  split
  next prunable =>
    simp only [Inner.prunable, Bool.and_eq_true] at prunable
    obtain ⟨record, found, ended⟩ := (Option.any_eq_true _ _).mp prunable.1
    refine .single (@Step.drop leaks _ _ record runId
      { ledger := ⟨found, ended, rfl, rfl⟩, turns := ?_, queue := rfl, admission := rfl,
        slots := rfl })
    dsimp only [roster, ledger]
    rw [found]
    dsimp only
    split
    · rename_i named
      obtain ⟨other, candidate, stored, same⟩ := (anyValue_iff _ _).mp named
      exact .inr ⟨rfl, .inr ⟨other, candidate, stored, of_decide_eq_true same⟩⟩
    · rename_i unnamed
      refine .inl ⟨rfl, fun other candidate stored same => ?_⟩
      exact unnamed ((anyValue_iff _ _).mpr ⟨other, candidate, stored, decide_eq_true same⟩)
  · exact .refl

theorem pruneTerminalRecords_steps (inner : Inner) :
    Steps leaks inner.roster inner.pruneTerminalRecords.roster :=
  pruneTerminalRecords_keeps (motive := fun after => Steps leaks inner.roster after.roster)
    (fun middle rest runId steps => steps.trans
      (pruneTerminalRecord_steps { middle with terminalRuns := rest } runId)) .refl

/-! ## Runner transitions -/

/-- What a scan of the queue leaves: the queue in another order, or without the run it
chose. -/
inductive Scanned (inner : Inner) : Option TurnRunId × Inner → Prop where
  | nothing (queue : List TurnRunId)
      (same : ∀ id, queue.count id = inner.queuedRuns.count id) :
      Scanned inner (none, { inner with queuedRuns := queue })
  | chosen (runId : TurnRunId) (record : RunRecord) (queue : List TurnRunId)
      (found : inner.records.get runId = some record) (queued : record.status = .queued)
      (claimable : inner.concurrency.canClaim (slotInfoFor record) = true)
      (counted : ∀ id, inner.queuedRuns.count id = queue.count id + [runId].count id) :
      Scanned inner (some runId, { inner with queuedRuns := queue })

theorem Scanned.of_count {queue : List TurnRunId} {result : Option TurnRunId × Inner}
    (scanned : Scanned { inner with queuedRuns := queue } result)
    (same : ∀ id, queue.count id = inner.queuedRuns.count id) : Scanned inner result := by
  cases scanned with
  | nothing rest counted => exact .nothing rest fun id => (counted id).trans (same id)
  | chosen runId record rest found queued claimable counted =>
    exact .chosen runId record rest found queued claimable fun id =>
      (same id).symm.trans (counted id)

theorem popMatchingQueuedRunLoop_scanned (scopeFilter : Option TurnScope) (rounds : Nat)
    (inner : Inner) (waiting : ∀ runId ∈ inner.queuedRuns, ∃ record,
      inner.records.get runId = some record ∧ record.status = .queued) :
    Scanned inner (popMatchingQueuedRunLoop scopeFilter rounds inner) := by
  induction rounds generalizing inner with
  | zero => exact .nothing inner.queuedRuns fun _ => rfl
  | succ _ ih =>
    unfold popMatchingQueuedRunLoop
    split
    · exact .nothing inner.queuedRuns fun _ => rfl
    rename_i head rest queue
    obtain ⟨record, found, queued⟩ := waiting head (by rw [queue]; exact mem_cons_self)
    rw [found]
    dsimp only
    rw [if_neg (not_not.mpr queued)]
    split
    next chosen =>
      simp only [Bool.and_eq_true] at chosen
      refine .chosen head record rest found queued chosen.2 fun id => ?_
      rw [queue, ← singleton_append, count_append, Nat.add_comm]
    · have rotated : ∀ id, (rest ++ [head]).count id = inner.queuedRuns.count id := by
        intro _
        rw [queue]
        simp only [count_append, count_cons, count_nil]
        omega
      refine (ih ({ inner with queuedRuns := rest }.pushQueuedRun head) ?_).of_count rotated
      intro runId listed
      refine waiting runId (count_pos_iff.mp ?_)
      rw [← rotated]
      exact count_pos_iff.mpr listed

theorem claimMatchingQueuedRun_steps (env : StoreEnv) (now : TurnTimestamp)
    (request : ClaimRunRequest) (orderly : inner.roster.Orderly) :
    Steps leaks inner.roster (inner.claimMatchingQueuedRun env now request).2.roster := by
  have scanned := popMatchingQueuedRunLoop_scanned request.scopeFilter inner.queuedRuns.length
    inner fun runId => orderly.queued_of_mem
  unfold claimMatchingQueuedRun popMatchingQueuedRun
  generalize popMatchingQueuedRunLoop request.scopeFilter inner.queuedRuns.length inner = scan
    at scanned
  cases scanned with
  | nothing queue same => exact .single (.shuffle queue same rfl)
  | chosen runId record queue found queued claimable counted =>
    dsimp only
    rw [found]
    have keyed : record.runId = runId := orderly.keyed found
    subst keyed
    refine .single (.rewrite (@Rewritten.updates inner record.runId record _
        (claimedRecord env { inner with queuedRuns := queue } record request.runnerId
          request.leaseToken now)
        { found } orderly.toAgreement (by rw [queued]; rfl) rfl ⟨rfl, rfl, rfl⟩ now rfl)
      { same := {}
        turns := rfl
        queue := ?_
        admission := rfl
        slots := concurrency_applyStatusTransition _ _ _
        capped := fun _ => claimable })
    intro id
    have once := counted id
    change queue.count id = if id = record.runId then 0 else inner.queuedRuns.count id
    split
    next own =>
      have waited := orderly.count_of_get found
      change inner.queuedRuns.count record.runId = _ at waited
      rw [own, waited, isQueued, queued] at once
      rw [own]
      simp at once
      omega
    next other =>
      rw [once, count_singleton, if_neg (by simpa using Ne.symm other), Nat.add_zero]

/-- Everything but an ending is one step. -/
theorem Moved.step (moved : Moved inner after runId record changed) (orderly : inner.roster.Orderly)
    (queue : ∀ id, after.queuedRuns.count id =
      if id = changed.runId then changed.isQueued.toNat else inner.queuedRuns.count id) :
    Step leaks inner.roster after.roster := by
  obtain ⟨_, locks⟩ := moved.locks
  exact .rewrite
    (moved.updates orderly.toAgreement moved.wasLive moved.live
      (moved.lease (orderly.lease moved.found)) locks)
    { same := moved.same
      __ := moved
      queue
      admission := by
        rw [moved.live]
        exact moved.admission
      capped := fun entered => absurd entered moved.left }

theorem Closed.step (closed : Closed inner after runId record changed)
    (orderly : inner.roster.Orderly) : Step leaks inner.roster after.roster :=
  .rewrite (closed.releases orderly.toAgreement)
    { same := closed.same
      __ := closed
      queue := by
        intro id
        change after.queuedRuns.count id = _
        rw [closed.queue]
        exact queue_removed (isQueued_of_isTerminal closed.ended) id
      admission := by
        rw [closed.ended, if_pos rfl]
        exact closed.admission
      capped := fun entered => absurd entered (not_entered (idle_of_isTerminal closed.ended)) }

theorem Continued.keepsBooks (written : Continued inner after runId record changed)
    (orderly : inner.roster.Orderly) (wasLive : record.status.isTerminal = false)
    (status : changed.status = record.status) (queue : after.queuedRuns = inner.queuedRuns)
    (slots : after.concurrency = inner.concurrency) :
    Books inner.roster after.roster record changed where
  __ := written
  queue := by
    intro id
    change after.queuedRuns.count id = _
    rw [queue]
    exact queue_kept orderly written.found written.own (by rw [isQueued, status]; rfl) id
  admission := by
    rw [status, wasLive]
    exact written.admission
  slots := by
    rw [status, between_self]
    exact slots
  capped := by
    rw [status, between_self]
    exact nofun

theorem RunEnd.steps {parks : Prop} {why : RunRecord → Prop} {answer : Option TurnRunState}
    (ends : RunEnd inner runId parks why answer after) (orderly : inner.roster.Orderly) :
    Steps leaks inner.roster after.roster := by
  induction ends with
  | absent => exact .refl
  | restored found => rw [insertRecord_removeRecord found (orderly.keyed found)]
  | kept written status checkpoint held locks queue slots =>
    obtain ⟨running, lease⟩ := held (orderly.lease written.found)
    have wasLive := isTerminal_of_holdsRunningSlot running
    exact .single (.rewrite (written.keeps orderly.toAgreement wasLive status lease locks)
      (written.keepsBooks orderly wasLive status queue slots))
  | parked _ moved queue blocked checkpoint =>
    refine .single (moved.step orderly ?_)
    rw [queue]
    refine queue_kept orderly moved.found moved.own ?_
    rw [isQueued_eq_false moved.idle, isQueued_eq_false]
    intro queued
    rw [queued] at blocked
    cases blocked
  | asked moved queue status =>
    refine .single (moved.step orderly ?_)
    rw [queue]
    refine queue_kept orderly moved.found moved.own ?_
    rw [isQueued_eq_false moved.idle, isQueued, status]
    rfl
  | queued moved queue status =>
    refine .single (moved.step orderly ?_)
    rw [queue (orderly.keyed moved.found)]
    exact queue_pushed orderly moved.found moved.own (isQueued_eq_false moved.idle)
      (decide_eq_true status)
  | closed ends => exact .trans (.single (ends.step orderly)) (pruneTerminalRecords_steps _)
  | pruned _ ih => exact ih.trans (pruneTerminalRecords_steps _)

/-! ## Lease recovery -/

theorem expiredLeaseTerminalOutcome_isTerminal (status : TurnStatus) :
    (expiredLeaseTerminalOutcome status).status.isTerminal = true := by
  cases status <;> rfl

variable (now : TurnTimestamp)

theorem recoverExpiredRun_spec (orderly : inner.roster.Orderly)
    (found : inner.records.get runId = some record) (live : record.status.isTerminal = false) :
    Step leaks inner.roster (inner.recoverExpiredRun now runId).2.roster ∧ ∀ other, other ≠ runId →
        (inner.recoverExpiredRun now runId).2.records.get other = inner.records.get other := by
  obtain rfl : record.runId = _ := orderly.keyed found
  unfold recoverExpiredRun
  rw [found]
  constructor
  · have ended := expiredLeaseTerminalOutcome_isTerminal record.status
    exact (closeRun_closed found live (record.closed _ _ _ _) rfl {} ended
      fun _ => .of_absent (idle_of_isTerminal ended) rfl rfl rfl).step orderly
  · intro other different
    change ((inner.records.remove record.runId).insert record.runId _).get other = _
    rw [get_insert_of_ne _ _ different, get_remove_of_ne _ different]

theorem recoverExpiredRuns_steps (expired : List TurnRunId) (orderly : inner.roster.Orderly)
    (distinct : expired.Nodup)
    (live : ∀ runId ∈ expired, ∃ record, inner.records.get runId = some record ∧
      record.status.isTerminal = false) :
    Steps leaks inner.roster (recoverExpiredRuns now expired inner).2.roster := by
  induction expired generalizing inner with
  | nil => exact .refl
  | cons runId _ ih =>
    obtain ⟨notLater, distinct⟩ := nodup_cons.mp distinct
    obtain ⟨_, found, alive⟩ := live runId mem_cons_self
    obtain ⟨step, others⟩ := recoverExpiredRun_spec now orderly found alive
    refine Relation.ReflTransGen.head step (ih (orderly.step step) distinct ?_)
    intro other later
    rw [others other (fun same => notLater (same ▸ later))]
    exact live other (mem_cons_of_mem _ later)

theorem recoverExpiredLeases_steps {request : RecoverExpiredLeasesRequest}
    {expired : List TurnRunId} (orderly : inner.roster.Orderly)
    (enumerates : inner.EnumeratesExpired request expired) :
    Steps leaks inner.roster (inner.recoverExpiredLeases now expired).2.roster := by
  refine (recoverExpiredRuns_steps now expired orderly enumerates.1 ?_).trans
    (pruneTerminalRecords_steps _)
  intro runId listed
  obtain ⟨record, found, due⟩ := (Option.any_eq_true _ _).mp ((enumerates.2 runId).mp listed)
  simp only [leaseExpired, Bool.and_eq_true] at due
  exact ⟨record, found, isTerminal_of_holdsRunningSlot due.1.1⟩

/-! ## Resuming and cancelling -/

theorem resumeTurn_steps (request : ResumeTurnRequest) (orderly : inner.roster.Orderly) :
    Steps leaks inner.roster (inner.resumeTurn now request).2.roster := by
  unfold resumeTurn
  dsimp only
  split
  · exact .refl
  · have ends := @resumeTurnOnce_ends inner now False (fun _ => False) request
    generalize inner.resumeTurnOnce now request = result at ends ⊢
    exact ends.steps orderly

theorem requestCancel_steps (request : CancelRunRequest) (orderly : inner.roster.Orderly) :
    Steps leaks inner.roster (inner.requestCancel now request).2.roster := by
  unfold requestCancel
  dsimp only
  split
  · exact .refl
  · obtain ⟨_, ends⟩ := @requestCancelOnce_ends inner now False request
    generalize inner.requestCancelOnce now request = result at ends ⊢
    exact ends.steps orderly

/-! ## Opening runs -/

theorem free_of_threadBusy (agreement : Agreement inner.ledger)
    {key : TurnActiveLockKey} (idle : inner.threadBusy key = none) :
    inner.activeLocks.get key = none := by
  cases held : inner.activeLocks.get key with
  | none => rfl
  | some lock =>
    obtain ⟨record, found, live, _⟩ := agreement.runOfLock held
    have found : inner.records.get lock.runId = some record := found
    simp [threadBusy, held, found, TurnStatus.keepsActiveLock, live] at idle

theorem refuseSubmit_fst (inner : Inner) (key : SubmitIdempotencyKey) (error : TurnError)
    (createdAt : TurnTimestamp) :
    (inner.refuseSubmit key error createdAt).1 = some (.error error) := by
  unfold refuseSubmit
  split <;> rfl

def Commit.opening (commit : Commit) : Opening :=
  ⟨commit.scope, some commit.context.freshTurnId, commit.context.limitFor⟩

/-- Both submissions open their run through `acceptSubmit`. -/
theorem SectionEnd.move {key : SubmitIdempotencyKey} {commit? : Option Commit} {forks : Prop}
    {ended : SubmitResult × Inner} (agreement : Agreement inner.ledger)
    (ends : SectionEnd inner key commit? forks ended) :
    Roster.Move leaks (commit?.map Commit.opening) inner.roster ended.2.roster := by
  cases ends with
  | decided | passed => exact .refl _ _ _
  | refused trees kept absent =>
    rw [roster_refuseSubmit]
    exact .refl _ _ _
  | @accepted trees kept absent context request runId profile reserved route given checked
      admitted =>
      obtain ⟨rfl, room⟩ := spec_of_reserveAdmission admitted
      obtain ⟨idle, fresh, _⟩ := spec_of_submitCommitChecks checked
      rw [given]
      exact .opened _ rfl
        (queuedRecord runId request context.freshTurnId profile route inner.cursorAfter) _
        { ledger := ⟨fresh, free_of_threadBusy agreement idle, rfl, .of_absent rfl rfl rfl rfl,
            rfl, rfl, rfl, rfl⟩
          scope := rfl
          turns := .inl ⟨turnRecordOf request context.freshTurnId, rfl, rfl, rfl, rfl⟩
          room }

theorem spec_of_retrySource {request : RetryTurnRequest} {failed : RunRecord}
    {checkpoint : LoopCheckpointRecord}
    (chosen : inner.retrySource request = .ok (failed, checkpoint)) :
    inner.records.get request.runId = some failed ∧ failed.scope = request.scope := by
  revert chosen
  fun_cases inner.retrySource request <;> rintro ⟨⟩
  next found other _ _ _ => exact ⟨found, not_not.mp other⟩

theorem retryTurnOnce_move (context : CallContext) (request : RetryTurnRequest)
    (agreement : Agreement inner.ledger) (unused : inner.records.get context.freshRunId = none) :
    Roster.Move leaks (some ⟨request.scope, none, context.limitFor⟩) inner.roster
      (inner.retryTurnOnce context request).2.roster := by
  fun_cases inner.retryTurnOnce context request <;> try exact .refl _ _ _
  next failed _ chosen idle _ admitted _ _ =>
    obtain ⟨rfl, room⟩ := spec_of_reserveAdmission admitted
    obtain ⟨found, sameScope⟩ := spec_of_retrySource chosen
    exact .opened _ rfl
      (retryRecord request failed context.freshRunId context.freshCheckpointId
        inner.cursorAfter context.now) _
      { ledger := ⟨unused, free_of_threadBusy agreement idle, rfl, .of_absent rfl rfl rfl rfl,
          rfl, rfl, rfl, rfl⟩
        scope := sameScope.symm
        turns := .inr ⟨rfl, request.runId, failed, found, rfl, rfl⟩
        room }

/-! ## Spawn trees -/

theorem TreeWrite.roster {after : Inner} (writes : TreeWrite inner False after) :
    after.roster = inner.roster := by
  cases writes with
  | same => rfl
  | stored => rfl
  | emptied _ _ may => exact may.elim

/-- The root of an empty tree has ended, waits in no queue, and is dropped on the spot
because that queue is full; no other run names its turn. -/
def DropsLastRun (inner : Inner) (rootRunId : TurnRunId) : Prop :=
  ∃ root, inner.records.get rootRunId = some root ∧ root.status.isTerminal = true ∧
    rootRunId ∉ inner.terminalRuns ∧
    inner.limits.maxTerminalRecords ≤ inner.terminalRuns.length ∧
    ∀ other candidate, inner.records.get other = some candidate →
      candidate.turnId = root.turnId → other = rootRunId

/-- An empty tree lets go of a root that has ended, and of nothing else. -/
theorem retireEmptyRoot_steps (rootRunId : TurnRunId) (inner : Inner)
    (leak : inner.DropsLastRun rootRunId → leaks) :
    Steps leaks inner.roster (inner.retireEmptyRoot rootRunId).roster := by
  unfold retireEmptyRoot
  split
  next retired =>
    split
    · rename_i full
      simp only [Bool.and_eq_true] at retired
      obtain ⟨record, found, ended⟩ := (Option.any_eq_true _ _).mp retired.1
      refine .single (@Step.drop leaks _ _ record rootRunId
        { ledger := ⟨found, ended, rfl, rfl⟩, turns := .inr ⟨rfl, ?_⟩, queue := rfl,
          admission := rfl, slots := rfl })
      by_cases last : inner.DropsLastRun rootRunId
      · exact .inl (leak last)
      refine .inr (Classical.byContradiction fun alone => last
        ⟨record, found, ended, by simpa using retired.2, full, ?_⟩)
      intro other candidate stored same
      by_contra different
      refine alone ⟨other, candidate, ?_, same⟩
      exact (get_remove_of_ne _ different).trans stored
    · exact pruneTerminalRecords_steps
        { inner with terminalRuns := inner.terminalRuns ++ [rootRunId] }
  · exact .refl

/-- The release that empties the tree of a root which `DropsLastRun` describes. -/
def ReleaseOrphansTurn (inner : Inner) (scope : TurnScope) (rootRunId : TurnRunId) (delta : Nat)
    (child : TurnRunId) : Prop :=
  ∃ root, inner.treeRoot scope rootRunId = .ok root ∧
    ∃ tree, inner.treeReservations.get (.new scope root.runId) = some tree ∧
      child ∉ tree.releasedChildren ∧ tree.count = delta ∧ inner.DropsLastRun root.runId

theorem releaseTreeDescendants_steps (scope : TurnScope) (rootRunId : TurnRunId) (delta : Nat)
    (idempotencyKey : TurnRunId) (inner : Inner)
    (leak : inner.ReleaseOrphansTurn scope rootRunId delta idempotencyKey → leaks) :
    Steps leaks inner.roster
      (inner.releaseTreeDescendants scope rootRunId delta idempotencyKey).2.roster := by
  fun_cases inner.releaseTreeDescendants scope rootRunId delta idempotencyKey <;>
    try exact .refl
  next root passed _ tree held unreleased _ _ =>
    refine retireEmptyRoot_steps _ (inner.removeTreeState _) fun last => leak ?_
    exact ⟨root, passed, tree, held, unreleased, by omega, last⟩

end Inner

/-! ## Every step is a roster move -/

open Ledger Roster

/-- The scopes on which a step may open a run. -/
def StoreOp.OpensOn : StoreOp → TurnScope → Prop
  | .submitCommit _ _ request, scope => request.scope = scope
  | .submitChildCommit _ _ request, scope => request.childScope = scope
  | .retryTurn _ request, scope => request.scope = scope
  | _, _ => False

def StoreOp.opening : StoreOp → Option Opening
  | .submitCommit context _ request =>
    some ⟨request.scope, some context.freshTurnId, context.limitFor⟩
  | .submitChildCommit context _ request =>
    some ⟨request.childScope, some context.freshTurnId, context.limitFor⟩
  | .retryTurn context request => some ⟨request.scope, none, context.limitFor⟩
  | _ => none

/-- The step drops the last run of a turn and leaves the turn. -/
def StoreOp.OrphansTurn (inner : Inner) : StoreOp → Prop
  | .releaseTreeDescendants scope rootRunId delta child =>
    inner.ReleaseOrphansTurn scope rootRunId delta child
  | _ => False

variable {guard : Inner → StoreOp → Prop} (env : StoreEnv)

theorem StoreOp.apply_roster (orderly : inner.roster.Orderly) (op : StoreOp)
    (admissible : op.Admissible inner) :
    Roster.Move (op.OrphansTurn inner) op.opening inner.roster (op.apply env inner).roster := by
  have agreement := orderly.toAgreement
  by_cases about : op.AboutRun
  · obtain ⟨_, _, _, _, ends⟩ := apply_ends env inner about
    exact .moved (ends.steps orderly)
  cases op with
  | claimSubmit =>
    simp only [apply, roster_claimSubmitIdempotency]
    exact .refl _ _ _
  | refuseLineage => exact (refuseLineage_ends inner _ _).move agreement
  | submitAdmission => exact (submitAdmission_ends inner ..).move agreement
  | submitCommit => exact (submitCommit_ends inner _ env _ _).move agreement
  | submitChildLineage => exact (submitChildLineage_ends inner _ _).move agreement
  | submitChildCommit => exact (submitChildCommit_ends inner ..).move agreement
  | dropInFlight | putLoopCheckpoint => exact .refl ..
  | resumeTurn => exact .moved (resumeTurn_steps _ _ orderly)
  | retryTurn context request =>
    simp only [apply, Inner.retryTurn]
    split
    · exact .refl _ _ _
    · rw [roster_rememberRetryIdempotency]
      exact retryTurnOnce_move context request agreement admissible
  | requestCancel => exact .moved (requestCancel_steps _ _ orderly)
  | reserveTreeDescendants scope rootRunId delta cap =>
    have kept := (reserveTreeDescendants_treeWrite scope rootRunId delta cap inner).roster
    simp only [apply, kept]
    exact .refl _ _ _
  | releaseTreeDescendants => exact .moved (releaseTreeDescendants_steps _ _ _ _ inner id)
  | pruneReleasedChild scope rootRunId childRunId =>
    have kept := (pruneReleasedChild_treeWrite scope rootRunId childRunId inner).roster
    simp only [apply, kept]
    exact .refl _ _ _
  | claimNextRun => exact .moved (claimMatchingQueuedRun_steps env _ _ orderly)
  | claimNextRuns request fresh =>
    exact .moved (claimNextRunsLoop_keeps
      (motive := fun after => Steps _ inner.roster after.roster)
      (fun now request _ steps => steps.trans
        (claimMatchingQueuedRun_steps env now request (orderly.steps steps)))
      request fresh request.maxRuns [] .refl)
  | recoverExpiredLeases => exact .moved (recoverExpiredLeases_steps _ orderly admissible)
  | _ => exact absurd trivial about

theorem StoreOp.apply_move (orderly : inner.roster.Orderly) (op : StoreOp)
    (admissible : op.Admissible inner) :
    Ledger.Move op.OpensOn inner.ledger (op.apply env inner).ledger :=
  (op.apply_roster env orderly admissible).ledger fun _ given => by
    cases op <;> cases given <;> rfl

theorem Roster.orderly_withLimits (limits : InMemoryTurnStateStoreLimits) :
    (withLimits limits).roster.Orderly := by
  refine ⟨⟨?_, ?_, ?_, ?_⟩, ?_, ?_⟩ <;> simp [roster, ledger, withLimits]

/-- The roster is orderly in every state of every run. -/
theorem turnStore.orderly {env : StoreEnv} (reached : (turnStore env).Reachable guard inner) :
    inner.roster.Orderly := by
  refine reached.invariant (fun state => state.roster.Orderly) ?_ ?_
  · rintro _ ⟨limits, rfl⟩
    exact orderly_withLimits limits
  · rintro _ op _ orderly _ ⟨admissible, rfl⟩
    exact orderly.move (op.apply_roster env orderly admissible)

theorem turnStore.agreement {env : StoreEnv} (reached : (turnStore env).Reachable guard inner) :
    Agreement inner.ledger :=
  (turnStore.orderly reached).toAgreement

end Ironclaw.Turns
