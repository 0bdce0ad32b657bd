import Ironclaw.Turns.Simulation

/-!
# Active locks over whole runs

Locks and live runs correspond one to one in every state the store can reach, and
the version of a lock only grows while one run keeps it.  A thread has one live run
as long as nobody opens a run on it under another owner: the lock is keyed by the
whole scope, owner included.
-/

namespace Ironclaw.Turns

open HostApi Lib Table System Turns.Inner Option

variable {before after : Ledger} {key : TurnActiveLockKey} {lock earlier : TurnActiveLockRecord}

namespace Ledger

/-! ## Lock versions -/

theorem RunStep.lock_before (agreement : Agreement before) (step : RunStep before after)
    (held : after.activeLocks.get key = some lock) :
    ∃ earlier, before.activeLocks.get key = some earlier ∧ earlier.runId = lock.runId ∧
      earlier.lockVersion.value ≤ lock.lockVersion.value := by
  cases step with
  | @update _ _ earlier _ updates =>
    rw [updates.activeLocks, get_insert] at held
    split at held
    next atKey =>
      have locked := updates.locked
      rw [updates.scope] at locked
      have owner := agreement.owner_of_scope updates.found updates.wasLive locked
      rw [← some.inj held, atKey]
      exact ⟨earlier, updates.locked, owner.trans updates.owner.symm, updates.version⟩
    · exact ⟨lock, held, rfl, Nat.le_refl _⟩
  | close closes =>
    rw [closes.activeLocks] at held
    exact ⟨lock, get_of_remove held, rfl, Nat.le_refl _⟩
  | evict evicts =>
    rw [evicts.activeLocks] at held
    exact ⟨lock, held, rfl, Nat.le_refl _⟩

theorem RunSteps.lock_before (agreement : Agreement before) (steps : RunSteps before after)
    (held : after.activeLocks.get key = some lock) :
    ∃ earlier, before.activeLocks.get key = some earlier ∧ earlier.runId = lock.runId ∧
      earlier.lockVersion.value ≤ lock.lockVersion.value := by
  induction steps generalizing lock with
  | refl => exact ⟨lock, held, rfl, Nat.le_refl _⟩
  | tail first last ih =>
    obtain ⟨_, heldMiddle, owner, newer⟩ := RunStep.lock_before (agreement.steps first) last held
    obtain ⟨earlier, heldEarlier, ownerEarlier, older⟩ := ih heldMiddle
    exact ⟨earlier, heldEarlier, ownerEarlier.trans owner, older.trans newer⟩

theorem Move.version_le {expected : TurnScope → Prop}
    (agreement : Agreement before) (move : Move expected before after)
    (heldBefore : before.activeLocks.get key = some earlier)
    (held : after.activeLocks.get key = some lock) :
    earlier.lockVersion.value ≤ lock.lockVersion.value := by
  cases move with
  | opened _ _ opens =>
    rw [opens.activeLocks, get_insert_of_ne, heldBefore] at held
    · rw [some.inj held]
    · rintro rfl
      rw [opens.free] at heldBefore
      cases heldBefore
  | moved steps =>
    obtain ⟨_, found, _, older⟩ := RunSteps.lock_before agreement steps held
    rw [heldBefore] at found
    rwa [← some.inj found] at older

end Ledger

open Ledger

namespace Inner

/-- Live runs and locks correspond: a live run has one lock, at the key of its whole
scope and in its status, and every lock is the lock of such a run. -/
structure LocksMatchRuns (inner : Inner) : Prop where
  lockOfRun : ∀ runId record, inner.records.get runId = some record →
    record.status.isTerminal = false →
    ∃ lock, inner.activeLocks.get ⟨record.scope⟩ = some lock ∧ lock.runId = record.runId ∧
      lock.status = record.status ∧
      ∀ key other, inner.activeLocks.get key = some other → other.runId = record.runId →
        key = ⟨record.scope⟩
  runOfLock : ∀ key lock, inner.activeLocks.get key = some lock →
    ∃ record, inner.records.get lock.runId = some record ∧ record.runId = lock.runId ∧
      record.status.isTerminal = false ∧ record.status = lock.status ∧ key = ⟨record.scope⟩

theorem locksMatchRuns_of_agreement {inner : Inner} (agreement : Agreement inner.ledger) :
    inner.LocksMatchRuns where
  lockOfRun := by
    intro runId record found live
    have keyed : record.runId = runId := agreement.keyed found
    obtain ⟨lock, held, owner, status⟩ := agreement.lockOfRun found live
    refine ⟨lock, held, owner.trans keyed.symm, status, ?_⟩
    intro key _ otherHeld otherOwner
    obtain ⟨candidate, candidateFound, _, atKey⟩ := agreement.runOfLock otherHeld
    rw [otherOwner, keyed] at candidateFound
    have same : record = candidate := some.inj (found.symm.trans candidateFound)
    rw [atKey, same]
  runOfLock := by
    intro key lock held
    obtain ⟨record, found, live, atKey⟩ := agreement.runOfLock held
    obtain ⟨own, ownHeld, _, status⟩ := agreement.lockOfRun found live
    rw [← atKey] at ownHeld
    have same : lock = own := some.inj (held.symm.trans ownHeld)
    exact ⟨record, found, agreement.keyed found, live, by rw [same, status], atKey⟩

def HoldsLock (inner : Inner) (key : TurnActiveLockKey) (runId : TurnRunId) : Prop :=
  ∃ lock, inner.activeLocks.get key = some lock ∧ lock.runId = runId

instance (inner : Inner) (key : TurnActiveLockKey) (runId : TurnRunId) :
    Decidable (inner.HoldsLock key runId) :=
  decidable_of_iff ((inner.activeLocks.get key).any (·.runId = runId))
    (by simp [HoldsLock, any_eq_true])

end Inner

namespace turnStore

/-- A stretch of a run of the store during which one run holds the lock at a key. -/
def KeepsLock (env : StoreEnv) (key : TurnActiveLockKey) (runId : TurnRunId) :
    Inner → Inner → Prop :=
  Relation.ReflTransGen fun before after =>
    before.HoldsLock key runId ∧ (∃ op, (turnStore env).step before op after) ∧
      after.HoldsLock key runId

theorem version_le_of_keepsLock {env : StoreEnv} {before after : Inner}
    (reached : (turnStore env).Reachable anyStep before)
    {runId : TurnRunId} (stretch : KeepsLock env key runId before after)
    (heldBefore : before.activeLocks.get key = some earlier)
    (held : after.activeLocks.get key = some lock) : (turnStore env).Reachable anyStep after ∧
      earlier.lockVersion.value ≤ lock.lockVersion.value := by
  induction stretch generalizing lock with
  | refl =>
    rw [heldBefore] at held
    exact ⟨reached, by rw [some.inj held]⟩
  | tail _ last ih =>
    obtain ⟨⟨_, heldMiddle, _⟩, ⟨op, admissible, rfl⟩, _⟩ := last
    obtain ⟨reachedMiddle, older⟩ := ih heldMiddle
    have moved := op.apply_move env (orderly reachedMiddle) admissible
    exact ⟨.next reachedMiddle trivial ⟨admissible, rfl⟩,
      older.trans (moved.version_le (orderly reachedMiddle).toAgreement heldMiddle held)⟩

/-- In every reachable state locks and live runs correspond, and over every stretch
of a run in which one run holds a lock the version of that lock does not fall. -/
theorem locks_match_runs_and_versions_grow (env : StoreEnv) {inner : Inner}
    (reached : (turnStore env).Reachable anyStep inner) : inner.LocksMatchRuns ∧
      ∀ key runId after, KeepsLock env key runId inner after →
        ∀ earlier lock, inner.activeLocks.get key = some earlier →
          after.activeLocks.get key = some lock →
          earlier.lockVersion.value ≤ lock.lockVersion.value := by
  refine ⟨locksMatchRuns_of_agreement (agreement reached), ?_⟩
  intro _ _ _ stretch _ _ heldBefore held
  exact (version_le_of_keepsLock reached stretch heldBefore held).2

end turnStore

/-! ## One live run per thread -/

/-- No two live runs are on one canonical thread. -/
def OneRunPerThread (records : Table TurnRunId RunRecord) : Prop :=
  ∀ runId other record candidate, records.get runId = some record →
    records.get other = some candidate → record.status.isTerminal = false →
    candidate.status.isTerminal = false → record.scope.sameThread candidate.scope = true →
    runId = other

/-- A step that may open a run is taken only when the live runs of that thread have
the owner the step names. -/
def StoreOp.OwnerAgrees (inner : Inner) (op : StoreOp) : Prop :=
  ∀ scope, op.OpensOn scope → ∀ runId record, inner.records.get runId = some record →
    record.status.isTerminal = false → record.scope.sameThread scope = true →
    record.scope.threadOwner = scope.threadOwner

namespace Ledger

theorem RunStep.live_before (step : RunStep before after)
    {runId : TurnRunId} {record : RunRecord} (found : after.records.get runId = some record)
    (live : record.status.isTerminal = false) :
    ∃ previous, before.records.get runId = some previous ∧
      previous.status.isTerminal = false ∧ previous.scope = record.scope := by
  cases step with
  | @update previous written _ _ updates =>
    rw [updates.records, get_insert] at found
    split at found
    next same =>
      rw [same, ← some.inj found]
      exact ⟨previous, updates.found, updates.wasLive, updates.scope.symm⟩
    · exact ⟨record, found, live, rfl⟩
  | @close _ _ closes =>
    rw [closes.records, get_insert] at found
    split at found
    · have ended := closes.ended
      rw [some.inj found, live] at ended
      cases ended
    · exact ⟨record, found, live, rfl⟩
  | evict evicts =>
    rw [evicts.records] at found
    exact ⟨record, get_of_remove found, live, rfl⟩

theorem RunStep.oneRunPerThread (step : RunStep before after)
    (one : OneRunPerThread before.records) : OneRunPerThread after.records := by
  intro _ other record candidate found foundOther live liveOther same
  obtain ⟨_, foundBefore, liveBefore, scope⟩ := step.live_before found live
  obtain ⟨_, foundEarlier, liveEarlier, scopeOther⟩ := step.live_before foundOther liveOther
  rw [← scope, ← scopeOther] at same
  exact one _ _ _ _ foundBefore foundEarlier liveBefore liveEarlier same

/-- A run opened on a free lock shares its thread with no live run, if the live runs
of the thread have its owner. -/
theorem Opens.alone {record : RunRecord}
    (opens : Opens before after record lock) (agreement : Agreement before)
    {other : TurnRunId} {candidate : RunRecord} (found : before.records.get other = some candidate)
    (live : candidate.status.isTerminal = false)
    (owner : candidate.scope.threadOwner = record.scope.threadOwner) :
    candidate.scope.sameThread record.scope = false := by
  cases same : candidate.scope.sameThread record.scope with
  | false => rfl
  | true =>
    obtain ⟨_, locked, _, _⟩ := agreement.lockOfRun found live
    rw [TurnScope.eq_of_sameThread same owner, opens.free] at locked
    cases locked

theorem Move.oneRunPerThread {expected : TurnScope → Prop}
    (agreement : Agreement before) (move : Move expected before after)
    (ownerAgrees : ∀ scope, expected scope → ∀ runId record,
      before.records.get runId = some record → record.status.isTerminal = false →
      record.scope.sameThread scope = true → record.scope.threadOwner = scope.threadOwner)
    (one : OneRunPerThread before.records) : OneRunPerThread after.records := by
  cases move with
  | opened record _ opens wanted =>
    have apart : ∀ other candidate, before.records.get other = some candidate →
        candidate.status.isTerminal = false →
        candidate.scope.sameThread record.scope ≠ true := by
      intro other candidate found live same
      have owner := ownerAgrees record.scope wanted other candidate found live same
      rw [opens.alone agreement found live owner] at same
      cases same
    intro _ _ _ _ found foundOther live liveOther same
    rw [opens.records, get_insert] at found foundOther
    split at found <;> split at foundOther
    next mine yours => rw [mine, yours]
    · rw [← some.inj found] at same
      exact absurd (TurnScope.sameThread_symm same) (apart _ _ foundOther liveOther)
    · rw [← some.inj foundOther] at same
      exact absurd same (apart _ _ found live)
    · exact one _ _ _ _ found foundOther live liveOther same
  | moved steps =>
    clear agreement
    induction steps with
    | refl => exact one
    | tail _ last ih => exact last.oneRunPerThread ih

end Ledger

namespace turnStore

/-- Under runs that never open a thread under a second owner, every thread has at
most one live run. -/
theorem one_run_per_thread (env : StoreEnv) {inner : Inner}
    (reached : (turnStore env).Reachable StoreOp.OwnerAgrees inner) :
    OneRunPerThread inner.records := by
  have both := reached.invariant
    (fun state => state.roster.Orderly ∧ OneRunPerThread state.records) ?_ ?_
  · exact both.2
  · rintro _ ⟨limits, rfl⟩
    refine ⟨Roster.orderly_withLimits limits, ?_⟩
    intro runId other record candidate found
    simp [withLimits] at found
  · rintro before op _ ⟨orderly, one⟩ allowed ⟨admissible, rfl⟩
    exact ⟨orderly.move (op.apply_roster env orderly admissible),
      (op.apply_move env orderly admissible).oneRunPerThread orderly.toAgreement allowed one⟩

/-! ## A first submission -/

/-- Date arithmetic without overflow and no model routes. -/
def sampleEnv : StoreEnv where
  checkedAddSigned now ttl := some (now + ttl)
  advisory _ := none
  validateRoute _ := .ok ()

/-- A call that admission lets through without limits. -/
def sampleContext : CallContext where
  now := 0
  freshTurnId := ⟨1⟩
  freshRunId := ⟨1⟩
  freshCheckpointId := ⟨1⟩
  admission := .ok ()
  profileResolution := .ok ⟨⟨"interactive_default"⟩, ⟨1⟩, false⟩
  limitFor _ := .ok ⟨none, none⟩

def sampleScope (owner : TurnThreadOwner) : TurnScope where
  tenantId := ⟨"tenant"⟩
  agentId := none
  projectId := none
  threadId := ⟨"thread"⟩
  threadOwner := owner

def sampleRequest (scope : TurnScope) (idempotencyKey : String) : SubmitTurnRequest where
  scope
  actor := ⟨⟨"user"⟩⟩
  acceptedMessageRef := ⟨"message"⟩
  sourceBindingRef := ⟨"source"⟩
  replyTargetBindingRef := ⟨"reply"⟩
  requestedRunProfile := none
  requestedModel := none
  idempotencyKey := ⟨idempotencyKey⟩
  receivedAt := 0
  requestedRunId := none
  parentRunId := none
  subagentDepth := 0
  spawnTreeRootRunId := none
  productContext := none

/-- A call that draws its own ids. -/
def contextOf (id : Nat) : CallContext :=
  { sampleContext with freshTurnId := ⟨id⟩, freshRunId := ⟨id⟩ }

def submissionOn (scope : TurnScope) (idempotencyKey : String) (id : Nat) : StoreOp :=
  .submitCommit (contextOf id) ⟨scope, ⟨idempotencyKey⟩⟩ (sampleRequest scope idempotencyKey)

def firstSubmission : StoreOp := submissionOn (sampleScope .actorFallback) "first" 1

/-- The tables while the first run is live. -/
def firstRunOrder : IterationOrder where
  turns := [⟨1⟩]
  records := [⟨1⟩]
  activeLocks := [⟨sampleScope .actorFallback⟩]
  loopCheckpoints := []
  idempotencyRecords := [persistedSubmitKey ⟨sampleScope .actorFallback, ⟨"first"⟩⟩]
  admissionReservations := [⟨1⟩]
  treeReservations := []
  loadedRecords := [⟨1⟩]

def submittedStore : Inner := firstSubmission.apply sampleEnv (.withLimits .default)

theorem submittedStore_reachable :
    (turnStore sampleEnv).Reachable StoreOp.OwnerAgrees submittedStore := by
  refine reachable_apply (.start ⟨.default, rfl⟩) firstSubmission trivial ?_
  intro _ _ _ _ found
  simp [withLimits] at found

def claimedStore : Inner := (StoreOp.claimNextRun 0 ⟨⟨7⟩, ⟨8⟩, none⟩).apply sampleEnv submittedStore

theorem claimedStore_step :
    (turnStore sampleEnv).step submittedStore (.claimNextRun 0 ⟨⟨7⟩, ⟨8⟩, none⟩) claimedStore :=
  ⟨trivial, rfl⟩

theorem claimedStore_reachable : (turnStore sampleEnv).Reachable anyStep claimedStore :=
  .next (submittedStore_reachable.weaken fun _ _ _ => trivial) trivial claimedStore_step

theorem claim_raises_lock_version : submittedStore.LocksMatchRuns ∧
      ∃ earlier lock, submittedStore.activeLocks.get ⟨sampleScope .actorFallback⟩ = some earlier ∧
        claimedStore.activeLocks.get ⟨sampleScope .actorFallback⟩ = some lock ∧
        earlier.lockVersion.value ≤ lock.lockVersion.value := by
  have facts := locks_match_runs_and_versions_grow sampleEnv
    (submittedStore_reachable.weaken fun _ _ _ => trivial)
  obtain ⟨earlier, heldBefore, ownerBefore⟩ :
      submittedStore.HoldsLock ⟨sampleScope .actorFallback⟩ ⟨1⟩ := by decide
  obtain ⟨lock, held, owner⟩ :
      claimedStore.HoldsLock ⟨sampleScope .actorFallback⟩ ⟨1⟩ := by decide
  refine ⟨facts.1, earlier, lock, heldBefore, held, ?_⟩
  exact facts.2 _ ⟨1⟩ claimedStore
    (.single ⟨⟨earlier, heldBefore, ownerBefore⟩, ⟨_, claimedStore_step⟩, ⟨lock, held, owner⟩⟩)
    earlier lock heldBefore held

/-- A submission agrees with the owners of a store none of whose live runs is on its thread
under another owner. -/
theorem ownerAgrees_submission {inner : Inner} {scope : TurnScope} {key : String} {id : Nat}
    (none : inner.records.anyValue (fun record => !record.status.isTerminal &&
      record.scope.sameThread scope && record.scope.threadOwner ≠ scope.threadOwner) = false) :
    (submissionOn scope key id).OwnerAgrees inner := by
  rintro _ rfl runId record found live same
  by_contra differs
  rw [Bool.eq_false_iff] at none
  exact none ((anyValue_iff _ _).mpr ⟨runId, record, found, by simpa [live] using ⟨same, differs⟩⟩)

/-- A thread beside the first, of another owner. -/
def otherScope : TurnScope :=
  { sampleScope (.explicitUser ⟨"owner"⟩) with threadId := ⟨"other"⟩ }

/-- After the first submission a second one on its thread, which is refused, and one on another
thread. -/
def busyStore : Inner :=
  (submissionOn otherScope "third" 3).apply sampleEnv
    ((submissionOn (sampleScope .actorFallback) "second" 2).apply sampleEnv submittedStore)

theorem one_run_per_thread_when_busy : OneRunPerThread busyStore.records ∧
      busyStore.records.get ⟨2⟩ = none ∧
      busyStore.records.countValues (fun record => !record.status.isTerminal) = 2 := by
  have second := reachable_apply submittedStore_reachable
    (submissionOn (sampleScope .actorFallback) "second" 2) trivial
    (ownerAgrees_submission (by decide))
  have third := reachable_apply second (submissionOn otherScope "third" 3) trivial
    (ownerAgrees_submission (by decide))
  exact ⟨one_run_per_thread sampleEnv third, by decide, by decide⟩

/-- Two submissions on one thread, the second under an explicit owner, are both
accepted. -/
def twoOwnersStore : Inner :=
  (((withLimits .default).submitTurn sampleEnv sampleContext
    (sampleRequest (sampleScope .actorFallback) "first")).2.submitTurn sampleEnv
    (contextOf 2)
    (sampleRequest (sampleScope (.explicitUser ⟨"owner"⟩)) "second")).2

theorem two_live_runs_on_one_thread : (turnStore sampleEnv).Reachable anyStep twoOwnersStore ∧
      ¬ OneRunPerThread twoOwnersStore.records := by
  refine ⟨reachable_submitTurn (reachable_submitTurn (.start ⟨.default, rfl⟩) _ _) _ _, ?_⟩
  intro one
  have same := one ⟨1⟩ ⟨2⟩ _ _ rfl rfl rfl rfl rfl
  cases same

end turnStore

/-! ## Ended runs -/

namespace Ledger

variable {runId : TurnRunId} {record : RunRecord}

/-- The run has ended and is stored as it ended, or no longer. -/
def Frozen (runId : TurnRunId) (record : RunRecord) (ledger : Ledger) : Prop :=
  record.status.isTerminal = true ∧
    (ledger.records.get runId = none ∨ ledger.records.get runId = some record)

variable (frozen : Frozen runId record before)
include frozen

theorem Frozen.insert {written : RunRecord} (other : runId ≠ written.runId)
    (records : after.records = before.records.insert written.runId written) :
    Frozen runId record after := by
  rw [Frozen, records, get_insert_of_ne _ _ other]
  exact frozen

theorem Frozen.step (step : RunStep before after) : Frozen runId record after := by
  have apart : ∀ {written previous : RunRecord}, before.records.get written.runId = some previous →
      previous.status.isTerminal = false → runId ≠ written.runId := by
    rintro _ _ found live rfl
    rcases frozen with ⟨ended, gone | kept⟩
    · cases gone.symm.trans found
    · cases kept.symm.trans found
      cases ended.symm.trans live
  cases step with
  | update updates => exact frozen.insert (apart updates.found updates.wasLive) updates.records
  | close closes => exact frozen.insert (apart closes.found closes.wasLive) closes.records
  | evict evicts =>
    rw [Frozen, evicts.records, get_remove]
    split
    · exact ⟨frozen.1, .inl rfl⟩
    · exact frozen

theorem Frozen.move {expected : TurnScope → Prop} (move : Move expected before after)
    (stored : before.records.get runId = some record) : Frozen runId record after := by
  cases move with
  | opened _ _ opens =>
    refine frozen.insert ?_ opens.records
    rintro rfl
    cases opens.fresh.symm.trans stored
  | moved steps =>
    clear stored
    induction steps with
    | refl => exact frozen
    | tail _ last ih => exact ih.step last

end Ledger

/-- As long as an ended run is stored, it stays as it ended. -/
theorem turnStore.ended_run_stays {env : StoreEnv} {inner after : Inner} {runId : TurnRunId}
    {record : RunRecord} (reached : (turnStore env).Reachable anyStep inner)
    (stored : inner.records.get runId = some record) (ended : record.status.isTerminal = true)
    (stretch : Relation.ReflTransGen (fun before after =>
      (∃ op, (turnStore env).step before op after) ∧ after.records.get runId ≠ none) inner after) :
    after.records.get runId = some record := by
  suffices kept : (turnStore env).Reachable anyStep after ∧ after.records.get runId = some record
    from kept.2
  induction stretch with
  | refl => exact ⟨reached, stored⟩
  | tail _ last ih =>
    obtain ⟨⟨op, admissible, rfl⟩, present⟩ := last
    have moved := op.apply_move env (orderly ih.1) admissible
    refine ⟨reachable_apply ih.1 op admissible trivial, ?_⟩
    exact (Frozen.move ⟨ended, .inr ih.2⟩ moved ih.2).2.resolve_left present

/-- A runner asks for the cancellation of the run it has completed. -/
theorem turnStore.completed_run_stays_completed :
    let ended := (StoreOp.completeRun 0 ⟨⟨1⟩, ⟨7⟩, ⟨8⟩⟩).apply sampleEnv claimedStore
    ∃ record, ((StoreOp.cancelRun 0 ⟨⟨1⟩, ⟨7⟩, ⟨8⟩⟩).apply sampleEnv ended).records.get ⟨1⟩ =
      some record ∧ record.status = .completed := by
  have reached := reachable_apply claimedStore_reachable (.completeRun 0 ⟨⟨1⟩, ⟨7⟩, ⟨8⟩⟩)
    trivial trivial
  exact ⟨_, ended_run_stays reached rfl rfl
    (.single ⟨⟨.cancelRun _ _, trivial, rfl⟩, by decide⟩), rfl⟩

end Ironclaw.Turns
