import Ironclaw.Turns.Capacity
import Ironclaw.Turns.RunChanges

/-!
# Persist-on-block

A store with a durable sink writes its whole snapshot when the set of gate-blocked runs
changes, and once more when a run that was written as blocked ends.  Three calls end
runs without that last write: a cancellation of a run no runner owns, the relinquishing
of a cancelled run and the recovery of an expired lease.  Every run of the system in
which they do not end such a run leaves the sink without a finished run to bring back.
-/

namespace Ironclaw.Turns

open Lib Turns.Inner
open List Option

/-! ## The store with its sink -/

structure PersistingStore where
  inner : Inner
  gatePersistedRuns : Finset TurnRunId
  persistSeq : Nat
  lastPersistedSeq : Nat
  /-- The snapshots the sink was given, the latest first. -/
  written : List TurnPersistenceSnapshot

namespace PersistingStore

/-- `with_block_persistence`: runs that were parked before and have not ended are tracked
from the start. -/
def withBlockPersistence (inner : Inner) (written : List TurnPersistenceSnapshot) :
    PersistingStore where
  inner
  gatePersistedRuns := inner.records.keys.filter fun runId =>
    (inner.records.get runId).any fun record =>
      !record.status.isTerminal && record.checkpointId.isSome
  persistSeq := 0
  lastPersistedSeq := 0
  written

variable (store : PersistingStore) (runId : TurnRunId)

def runIsBlocked : Bool := (store.inner.records.get runId).any fun record => record.status.isBlocked

def markGatePersisted : PersistingStore :=
  { store with gatePersistedRuns := insert runId store.gatePersistedRuns }

def isGatePersisted : Bool := decide (runId ∈ store.gatePersistedRuns)

def clearGatePersisted : PersistingStore :=
  { store with gatePersistedRuns := store.gatePersistedRuns.erase runId }

/-- Capture a snapshot and write it unless a later one was written already. -/
def persistBlockedState (order : IterationOrder) (store : PersistingStore) : PersistingStore :=
  let seq := store.persistSeq
  let captured := { store with persistSeq := nextPersistSeq seq }
  if seq < store.lastPersistedSeq then captured
  else
    { captured with
      lastPersistedSeq := seq
      written := store.inner.persistenceSnapshot order :: store.written }

def endedRun : Except TurnError TurnRunState → Bool
  | .ok state => state.status.isTerminal
  | .error _ => false

def persistTerminalCleanup (order : IterationOrder) (runId : TurnRunId) (gatePersisted : Bool)
    (result : Except TurnError TurnRunState) (store : PersistingStore) : PersistingStore :=
  if gatePersisted && endedRun result then
    (store.persistBlockedState order).clearGatePersisted runId
  else store

def call (env : StoreEnv) (order : IterationOrder) (op : StoreOp) (store : PersistingStore) :
    PersistingStore :=
  let next := { store with inner := op.apply env store.inner }
  match op with
  | .resumeTurn now request =>
    let replayed := store.inner.resumeIdempotency.get
      ⟨request.scope, request.runId, request.idempotencyKey⟩
    if replayed.isNone && (store.inner.resumeTurnOnce now request).1.isOk then
      next.persistBlockedState order
    else next
  | .blockRun now request =>
    if (store.inner.blockRun now request).1.isOk then
      (next.markGatePersisted request.runId).persistBlockedState order
    else next
  | .completeRun now claim =>
    next.persistTerminalCleanup order claim.runId (store.isGatePersisted claim.runId)
      (store.inner.completeRun now claim).1
  | .cancelRun now claim =>
    next.persistTerminalCleanup order claim.runId (store.isGatePersisted claim.runId)
      (store.inner.cancelRun now claim).1
  | .failRun now claim failure =>
    next.persistTerminalCleanup order claim.runId (store.isGatePersisted claim.runId)
      (store.inner.failRun now claim failure).1
  | .recordRunnerFailure now claim failure =>
    next.persistTerminalCleanup order claim.runId (store.isGatePersisted claim.runId)
      (store.inner.recordRunnerFailure now claim failure).1
  | .applyValidatedLoopExit now claim mapping modelUsage =>
    if (store.inner.applyValidatedLoopExit now claim mapping modelUsage).1.isOk then
      if next.runIsBlocked claim.runId then
        (next.markGatePersisted claim.runId).persistBlockedState order
      else if store.isGatePersisted claim.runId then
        (next.persistBlockedState order).clearGatePersisted claim.runId
      else next
    else next
  | _ => next

/-- The run was written to the sink as blocked. -/
def WroteBlocked : Prop :=
  ∃ snapshot ∈ store.written, ∃ row ∈ snapshot.runs, row.runId = runId ∧ row.status.isBlocked = true

/-- A run that was written as blocked and has ended is not live in the last snapshot. -/
def FinishedStayFinished : Prop :=
  ∀ runId record, store.WroteBlocked runId → store.inner.records.get runId = some record →
    record.status.isTerminal = true →
    ∀ snapshot, store.written.head? = some snapshot →
      ∀ row ∈ snapshot.runs, row.runId = runId → row.status.isTerminal = true

end PersistingStore

inductive PersistOp where
  /-- A call; `order` is how the tables are walked if it writes a snapshot. -/
  | call (op : StoreOp) (order : IterationOrder)
  | flush (order : IterationOrder)
  /-- A new process loads the last snapshot and attaches the sink to it. -/
  | restart (limits : InMemoryTurnStateStoreLimits) (loadedRecords : List TurnRunId)

def persistingStore (env : StoreEnv) : System PersistingStore PersistOp where
  init store := ∃ limits, store = .withBlockPersistence (withLimits limits) []
  step before label after :=
    match label with
    | .call op order => op.Admissible before.inner ∧ op.DrawsFreshTurn before.inner ∧
        order.Walks (op.apply env before.inner) ∧ after = before.call env order op
    | .flush order => order.Walks before.inner ∧ after = before.persistBlockedState order
    | .restart limits loadedRecords => ∃ snapshot loaded, before.written.head? = some snapshot ∧
        fromPersistenceSnapshot snapshot limits loadedRecords = .ok loaded ∧
        loaded.records.IteratedBy loadedRecords ∧
        after = .withBlockPersistence loaded before.written

/-- No call ends a run that was written as blocked without a write, no call opens a run
under the identifier of such a run, and the numbers of the snapshots do not start again. -/
def PersistOp.KeepsSink (before : PersistingStore) : PersistOp → Prop
  | .call op _ => before.persistSeq + 1 < 2 ^ 64 ∧ ∀ runId, before.WroteBlocked runId →
      ¬ op.EndsSilently before.inner runId ∧ op.openedRun ≠ some runId
  | .flush _ => before.persistSeq + 1 < 2 ^ 64
  | .restart _ _ => True

/-! ## Snapshots -/

variable {limits : InMemoryTurnStateStoreLimits} {loaded : Inner} {order : IterationOrder}

/-- A snapshot of a sound store loads, whatever the order the loaded runs are walked in. -/
theorem Inner.reloaded_of_snapshot {inner : Inner} (sound : inner.roster.Sound)
    (walks : order.Walks inner) {loadedRecords : List TurnRunId}
    (ok : fromPersistenceSnapshot (inner.persistenceSnapshot order) limits loadedRecords =
      .ok loaded)
    (iterated : loaded.records.IteratedBy loadedRecords) :
    inner.Reloaded loaded limits { order with loadedRecords } := by
  obtain ⟨_, otherOk, otherFacts⟩ := reload_of_sound sound walks limits
  -- The order the loaded runs are walked in does not change which runs are loaded.
  have records : loaded.records = inner.records := by
    rw [← otherFacts.records]
    unfold reload fromPersistenceSnapshot at *
    dsimp only at ok otherOk
    split at ok
    · cases ok
    next runs read =>
      rw [read] at otherOk
      cases ok
      cases otherOk
      rfl
  have rewalks : IterationOrder.Walks { order with loadedRecords } inner :=
    { walks with loadedRecords := records ▸ iterated }
  obtain ⟨_, reloads, facts⟩ := reload_of_sound sound rewalks limits
  cases ok.symm.trans reloads
  exact facts

namespace PersistingStore

variable {store : PersistingStore}

/-! ## What a call writes and tracks -/

structure CallSpec (env : StoreEnv) (order : IterationOrder) (op : StoreOp)
    (store after : PersistingStore) : Prop where
  inner : after.inner = op.apply env store.inner
  seq : after.lastPersistedSeq ≤ after.persistSeq
  wrote : after.written = store.written ∨
    after.written = after.inner.persistenceSnapshot order :: store.written
  tracked : ∀ runId record, runId ∈ store.gatePersistedRuns →
    after.inner.records.get runId = some record → record.status.isTerminal = false →
    runId ∈ after.gatePersistedRuns
  reported : ∀ own state record, op.report store.inner = some (own, .ok state) →
    after.inner.records.get own = some record → state.status = record.status →
    (record.status.isBlocked = true → own ∈ after.gatePersistedRuns) ∧
    (record.status.isTerminal = true → own ∈ store.gatePersistedRuns →
      after.written = after.inner.persistenceSnapshot order :: store.written)

/-- The next snapshot gets a number above all others. -/
def Counts (store : PersistingStore) : Prop :=
  store.lastPersistedSeq ≤ store.persistSeq ∧ store.persistSeq + 1 < 2 ^ 64

theorem persistBlockedState_of_counts (order : IterationOrder) (counts : store.Counts)
    (inner : Inner) (tracked : Finset TurnRunId) :
    persistBlockedState order { store with inner, gatePersistedRuns := tracked } =
      { inner
        gatePersistedRuns := tracked
        persistSeq := store.persistSeq + 1
        lastPersistedSeq := store.persistSeq
        written := inner.persistenceSnapshot order :: store.written } := by
  rw [persistBlockedState, if_neg (Nat.not_lt.mpr counts.1), nextPersistSeq,
    Nat.mod_eq_of_lt counts.2]

section

variable (env : StoreEnv) (order : IterationOrder) {op : StoreOp} (counts : store.Counts)

include counts

theorem callSpec_of_silent
    (unreported : ∀ own state, op.report store.inner ≠ some (own, .ok state)) :
    CallSpec env order op store { store with inner := op.apply env store.inner } where
  inner := rfl
  seq := counts.1
  wrote := .inl rfl
  tracked _ _ held _ _ := held
  reported own state _ given := absurd given (unreported own state)

section

variable {own : TurnRunId} {answer : Except TurnError TurnRunState}
  (given : op.report store.inner = some (own, answer))

include given

theorem callSpec_of_parked : CallSpec env order op store (persistBlockedState order
      (markGatePersisted { store with inner := op.apply env store.inner } own)) := by
  rw [markGatePersisted, persistBlockedState_of_counts order counts]
  refine ⟨rfl, Nat.le_succ _, .inr rfl, fun _ _ held _ _ => Finset.mem_insert_of_mem held,
    fun other state record reported _ _ => ⟨fun _ => ?_, fun _ _ => rfl⟩⟩
  cases given.symm.trans reported
  exact Finset.mem_insert_self _ _

theorem callSpec_of_cleared
    (ended : ∀ record, (op.apply env store.inner).records.get own = some record →
      record.status.isTerminal = true) :
    CallSpec env order op store (clearGatePersisted
      (persistBlockedState order { store with inner := op.apply env store.inner }) own) := by
  rw [persistBlockedState_of_counts order counts]
  refine ⟨rfl, Nat.le_succ _, .inr rfl, fun runId record held found live => ?_,
    fun other state record reported found _ => ⟨fun blocked => ?_, fun _ _ => rfl⟩⟩
  · refine Finset.mem_erase.mpr ⟨?_, held⟩
    rintro rfl
    cases live.symm.trans (ended record found)
  · cases given.symm.trans reported
    cases (TurnStatus.isTerminal_of_isBlocked blocked).symm.trans (ended record found)

theorem callSpec_of_untracked
    (ended : ∀ record, (op.apply env store.inner).records.get own = some record →
      record.status.isTerminal = true ∧ own ∉ store.gatePersistedRuns) :
    CallSpec env order op store { store with inner := op.apply env store.inner } := by
  refine ⟨rfl, counts.1, .inl rfl, fun _ _ held _ _ => held,
    fun other state record reported found _ => ?_⟩
  cases given.symm.trans reported
  obtain ⟨terminal, untracked⟩ := ended record found
  refine ⟨fun blocked => ?_, fun _ held => absurd held untracked⟩
  cases (TurnStatus.isTerminal_of_isBlocked blocked).symm.trans terminal

end

theorem callSpec_of_cleanup {own : TurnRunId} {result : Except TurnError TurnRunState × Inner}
    (reports : store.inner.Reports own False result) (applied : op.apply env store.inner = result.2)
    (given : op.report store.inner = some (own, result.1)) : CallSpec env order op store
      (persistTerminalCleanup order own (store.isGatePersisted own) result.1
        { store with inner := op.apply env store.inner }) := by
  cases answered : result.1 with
  | error =>
    rw [persistTerminalCleanup, endedRun, Bool.and_false]
    exact callSpec_of_silent env order counts (by rw [given, answered]; rintro _ _ ⟨⟩)
  | ok state =>
    have ended : ∀ record, (op.apply env store.inner).records.get own = some record →
        state.status = record.status ∧ record.status.isTerminal = true := by
      intro record found
      rw [applied] at found
      exact (reports.shown state record answered found).imp_right
        fun settled => settled.resolve_right fun parked => parked.1
    unfold persistTerminalCleanup
    split
    · exact callSpec_of_cleared env order counts given fun record found => (ended record found).2
    next idle =>
      refine callSpec_of_untracked env order counts given fun record found => ?_
      obtain ⟨status, terminal⟩ := ended record found
      refine ⟨terminal, fun held => idle ?_⟩
      rw [endedRun, status, terminal, Bool.and_true]
      exact decide_eq_true held

theorem callSpec_blockRun (now : TurnTimestamp) (request : BlockRunRequest) :
    CallSpec env order (.blockRun now request) store
      (store.call env order (.blockRun now request)) := by
  unfold call
  dsimp only
  split
  · exact callSpec_of_parked env order counts rfl
  next refused =>
    refine callSpec_of_silent env order counts fun own state reported => refused ?_
    simp only [StoreOp.report, some.injEq, Prod.mk.injEq] at reported
    rw [reported.2]
    rfl

theorem callSpec_loopExit (orderly : store.inner.roster.Orderly) (now : TurnTimestamp)
    (claim : LeaseClaim) (mapping : LoopExitMapping) (modelUsage : Option LoopModelUsage) :
    CallSpec env order (.applyValidatedLoopExit now claim mapping modelUsage) store
      (store.call env order (.applyValidatedLoopExit now claim mapping modelUsage)) := by
  have ends := applyValidatedLoopExit_ends store.inner now claim mapping modelUsage
  have reports := ends.reports orderly
  unfold call
  dsimp only
  split
  next accepted =>
    split
    · exact callSpec_of_parked env order counts rfl
    next unparked =>
      -- The run is there as ended if it is there at all.
      have ended : ∀ record, (store.inner.applyValidatedLoopExit now claim mapping
          modelUsage).2.records.get claim.runId = some record →
          record.status.isTerminal = true := by
        intro record found
        cases answered : (store.inner.applyValidatedLoopExit now claim mapping modelUsage).1 with
        | error =>
          rw [answered] at accepted
          cases accepted
        | ok state =>
          refine (reports.shown state record answered found).2.resolve_right fun parked => ?_
          exact unparked ((any_eq_true _ _).mpr ⟨record, found, parked.2⟩)
      split
      · exact callSpec_of_cleared env order counts rfl ended
      next untracked =>
        exact callSpec_of_untracked env order counts rfl fun record found =>
          ⟨ended record found, fun held => untracked (decide_eq_true held)⟩
  next refused =>
    refine callSpec_of_silent env order counts fun own state reported => refused ?_
    simp only [StoreOp.report, some.injEq, Prod.mk.injEq] at reported
    rw [reported.2]
    rfl

theorem callSpec (orderly : store.inner.roster.Orderly) (op : StoreOp) :
    CallSpec env order op store (store.call env order op) := by
  cases op with
  | resumeTurn =>
    unfold call
    dsimp only
    split
    · rw [persistBlockedState_of_counts order counts]
      exact ⟨rfl, Nat.le_succ _, .inr rfl, fun _ _ held _ _ => held, by rintro _ _ _ ⟨⟩⟩
    · exact callSpec_of_silent env order counts (by rintro _ _ ⟨⟩)
  | blockRun => exact callSpec_blockRun env order counts _ _
  | completeRun =>
    exact callSpec_of_cleanup env order counts ((terminalTransition_ends _ _ _ rfl none
      .completed).reports orderly) rfl rfl
  | cancelRun =>
    exact callSpec_of_cleanup env order counts ((cancelCompletionTransition_ends ..).reports
      orderly) rfl rfl
  | failRun =>
    exact callSpec_of_cleanup env order counts ((terminalTransition_ends _ _ _ rfl (some _)
      .failed).reports orderly) rfl rfl
  | recordRunnerFailure =>
    exact callSpec_of_cleanup env order counts ((recordRunnerFailure_ends ..).reports orderly)
      rfl rfl
  | applyValidatedLoopExit => exact callSpec_loopExit env order counts orderly ..
  | _ => exact callSpec_of_silent env order counts (by rintro _ _ ⟨⟩)

end

/-! ## The invariant -/

/-- The snapshot was taken of a sound store in which every live run that was written as
blocked has a checkpoint. -/
def Readable (store : PersistingStore) (snapshot : TurnPersistenceSnapshot) : Prop :=
  ∃ (earlier : Inner) (order : IterationOrder), earlier.roster.Sound ∧ order.Walks earlier ∧
    snapshot = earlier.persistenceSnapshot order ∧
    ∀ runId record, earlier.records.get runId = some record → record.status.isTerminal = false →
      store.WroteBlocked runId → record.checkpointId.isSome = true

/-- Live runs that are parked or were written as blocked are tracked, and so found again
by their checkpoint; ended ones are not live in the last snapshot. -/
structure Durable (store : PersistingStore) : Prop where
  sound : store.inner.roster.Sound
  seq : store.lastPersistedSeq ≤ store.persistSeq
  tracked : ∀ runId record, store.inner.records.get runId = some record →
    record.status.isTerminal = false →
    (record.status.isBlocked = true ∨ store.WroteBlocked runId) →
    runId ∈ store.gatePersistedRuns ∧ record.checkpointId.isSome = true
  settled : store.FinishedStayFinished
  readable : ∀ snapshot, store.written.head? = some snapshot → store.Readable snapshot

variable {before after : PersistingStore}

theorem wroteBlocked_congr (same : after.written = before.written)
    (runId : TurnRunId) : after.WroteBlocked runId ↔ before.WroteBlocked runId := by
  unfold WroteBlocked
  rw [same]

section

variable {inner : Inner} {order : IterationOrder} (orderly : inner.roster.Orderly)
  (walks : order.Walks inner)

include orderly walks

theorem row_of_runId {runId : TurnRunId} {record : RunRecord}
    (found : inner.records.get runId = some record) {row : TurnRunRecord}
    (listed : row ∈ (inner.persistenceSnapshot order).runs) (named : row.runId = runId) :
    row = record.persistenceRecord := by
  obtain ⟨storedId, stored, foundStored, rfl⟩ :=
    (mem_persistenceSnapshot_runs walks.records).mp listed
  have keyed : stored.runId = storedId := orderly.keyed foundStored
  have same : storedId = runId := keyed.symm.trans named
  rw [same, found] at foundStored
  cases foundStored
  rfl

/-- Runs a snapshot shows as blocked are parked in the store it was taken of. -/
theorem wroteBlocked_of_cons
    (wrote : after.written = inner.persistenceSnapshot order :: before.written)
    {runId : TurnRunId} (blocked : after.WroteBlocked runId) : before.WroteBlocked runId ∨
      ∃ record, inner.records.get runId = some record ∧ record.status.isBlocked = true := by
  obtain ⟨snapshot, listed, row, member, named, shown⟩ := blocked
  rw [wrote, mem_cons] at listed
  rcases listed with rfl | earlier
  · obtain ⟨storedId, record, found, rfl⟩ :=
      (mem_persistenceSnapshot_runs walks.records).mp member
    have keyed : record.runId = storedId := orderly.keyed found
    exact .inr ⟨record, (keyed.symm.trans named) ▸ found, shown⟩
  · exact .inl ⟨snapshot, earlier, row, member, named, shown⟩

end

theorem Durable.of_step (durable : before.Durable) (sound : after.inner.roster.Sound)
    (seq : after.lastPersistedSeq ≤ after.persistSeq) (walks : order.Walks after.inner)
    (wrote : after.written = before.written ∨
      after.written = after.inner.persistenceSnapshot order :: before.written)
    (tracked : ∀ runId record, after.inner.records.get runId = some record →
      record.status.isTerminal = false →
      (record.status.isBlocked = true ∨ before.WroteBlocked runId) →
      runId ∈ after.gatePersistedRuns ∧ record.checkpointId.isSome = true)
    (settled : after.written = before.written → after.FinishedStayFinished) : after.Durable := by
  rcases wrote with same | wrote
  · refine ⟨sound, seq, ?_, settled same, ?_⟩
    · intro runId record found live touched
      exact tracked runId record found live (touched.imp_right (wroteBlocked_congr same runId).mp)
    · intro snapshot last
      rw [same] at last
      obtain ⟨earlier, earlierOrder, soundThen, walksThen, taken, kept⟩ :=
        durable.readable snapshot last
      exact ⟨earlier, earlierOrder, soundThen, walksThen, taken, fun runId record found live
        blocked => kept runId record found live ((wroteBlocked_congr same runId).mp blocked)⟩
  · -- Everything the sink now shows is the store itself.
    have trackedHere : ∀ runId record, after.inner.records.get runId = some record →
        record.status.isTerminal = false →
        (record.status.isBlocked = true ∨ after.WroteBlocked runId) →
        runId ∈ after.gatePersistedRuns ∧ record.checkpointId.isSome = true := by
      intro runId record found live touched
      refine tracked runId record found live ?_
      rcases touched with blocked | blocked
      · exact .inl blocked
      rcases wroteBlocked_of_cons sound.orderly walks wrote blocked with
        earlier | ⟨stored, foundStored, parked⟩
      · exact .inr earlier
      · rw [found] at foundStored
        cases foundStored
        exact .inl parked
    refine ⟨sound, seq, trackedHere, ?_, ?_⟩
    · intro runId record _ found ended snapshot last row listed named
      rw [wrote, head?_cons] at last
      cases last
      rw [row_of_runId sound.orderly walks found listed named]
      exact ended
    · intro snapshot last
      rw [wrote, head?_cons] at last
      cases last
      exact ⟨after.inner, order, sound, walks, rfl, fun runId record found live blocked =>
        (trackedHere runId record found live (.inr blocked)).2⟩

theorem Durable.flush (durable : store.Durable) (walks : order.Walks store.inner)
    (keeps : (PersistOp.flush order).KeepsSink store) :
    (store.persistBlockedState order).Durable := by
  have written := persistBlockedState_of_counts order ⟨durable.seq, keeps⟩ store.inner
    store.gatePersistedRuns
  rw [show store.persistBlockedState order = _ from written]
  refine durable.of_step durable.sound (Nat.le_succ _) walks (.inr rfl) durable.tracked ?_
  intro same
  exact absurd same (cons_ne_self _ _)

/-- A call that ends no written run silently keeps the invariant. -/
theorem Durable.call (env : StoreEnv) (durable : store.Durable) {op : StoreOp}
    (admissible : op.Admissible store.inner)
    (fresh : op.DrawsFreshTurn store.inner) (walks : order.Walks (op.apply env store.inner))
    (keeps : (PersistOp.call op order).KeepsSink store) : (store.call env order op).Durable := by
  have orderly := durable.sound.orderly
  have spec := callSpec env order ⟨durable.seq, keeps.1⟩ orderly op
  have changes := op.apply_changes env orderly admissible
  rw [← spec.inner] at walks changes
  have sound : (store.call env order op).inner.roster.Sound := by
    rw [spec.inner]
    exact durable.sound.move (op.apply_roster env orderly admissible) fresh
  refine durable.of_step sound spec.seq walks spec.wrote ?_ ?_
  · intro runId record found live touched
    rcases changes runId record found with same | change
    · obtain ⟨held, checkpoint⟩ := durable.tracked runId record same live touched
      exact ⟨spec.tracked runId record held found live, checkpoint⟩
    · cases change with
      | opened _ named queued =>
        rcases touched with blocked | blocked
        · rw [queued] at blocked
          cases blocked
        · exact absurd named (keeps.2 runId blocked).2
      | carried change =>
        rcases touched with blocked | blocked
        · cases change.unparked.symm.trans blocked
        · obtain ⟨previous, stored, alive, kept⟩ := change.wasLive
          obtain ⟨held, checkpoint⟩ := durable.tracked runId previous stored alive (.inr blocked)
          exact ⟨spec.tracked runId record held found live, kept checkpoint⟩
      | reported _ _ given change =>
        obtain ⟨rfl, _, ⟨state, rfl, status⟩, settled⟩ := change
        rcases settled with ended | ⟨blocked, checkpoint⟩
        · cases live.symm.trans ended
        · exact ⟨(spec.reported _ state record given found status).1 blocked, checkpoint⟩
      | silent ends ended => cases live.symm.trans ended
  · intro same runId record blocked found ended snapshot last row listed named
    have blocked := (wroteBlocked_congr same runId).mp blocked
    rcases changes runId record found with unchanged | change
    · rw [same] at last
      exact durable.settled runId record blocked unchanged ended snapshot last row listed named
    · cases change with
      | opened _ named => exact absurd named (keeps.2 runId blocked).2
      | carried change => cases change.live.symm.trans ended
      | reported _ _ given change =>
        obtain ⟨rfl, ⟨previous, stored, alive⟩, ⟨state, rfl, status⟩, _⟩ := change
        have held := (durable.tracked runId previous stored alive (.inr blocked)).1
        have wrote := (spec.reported _ state record given found status).2 ended held
        exact absurd (same.symm.trans wrote).symm (cons_ne_self _ _)
      | silent ends => exact absurd ends (keeps.2 runId blocked).1

theorem Durable.restart (durable : store.Durable) {snapshot : TurnPersistenceSnapshot}
    (last : store.written.head? = some snapshot) {loadedRecords : List TurnRunId}
    (ok : fromPersistenceSnapshot snapshot limits loadedRecords = .ok loaded)
    (iterated : loaded.records.IteratedBy loadedRecords) :
    (withBlockPersistence loaded store.written).Durable := by
  obtain ⟨_, _, sound, walks, rfl, kept⟩ := durable.readable snapshot last
  have facts := reloaded_of_snapshot sound walks ok iterated
  have checkpointed : ∀ runId record, loaded.records.get runId = some record →
      record.status.isTerminal = false →
      (record.status.isBlocked = true ∨ store.WroteBlocked runId) →
      record.checkpointId.isSome = true := by
    intro runId record found live touched
    rw [facts.records] at found
    refine kept runId record found live (touched.elim (fun blocked => ?_) id)
    exact ⟨_, mem_of_mem_head? last, record.persistenceRecord,
      (mem_persistenceSnapshot_runs walks.records).mpr ⟨runId, record, found, rfl⟩,
      sound.orderly.keyed found, blocked⟩
  refine ⟨facts.sound sound, Nat.le_refl 0, ?_, ?_, ?_⟩
  · intro runId record found live touched
    have checkpoint := checkpointed runId record found live touched
    refine ⟨?_, checkpoint⟩
    refine Finset.mem_filter.mpr ⟨Table.mem_keys.mpr (isSome_of_eq_some found), ?_⟩
    rw [show loaded.records.get runId = some record from found, any_some, live, checkpoint]
    rfl
  · intro _ _ _ found ended _ newestLast _ listed named
    cases last.symm.trans newestLast
    rw [row_of_runId sound.orderly walks (facts.records ▸ found) listed named]
    exact ended
  · exact durable.readable

end PersistingStore

namespace persistingStore

variable {env : StoreEnv} {store : PersistingStore}

theorem durable
    (reached : (persistingStore env).Reachable PersistOp.KeepsSink store) : store.Durable := by
  refine reached.invariant PersistingStore.Durable ?_ ?_
  · rintro _ ⟨limits, rfl⟩
    refine ⟨Roster.sound_withLimits limits, Nat.le_refl 0, fun _ _ found => (nomatch found),
      ?_, nofun⟩
    rintro _ _ ⟨_, listed, _⟩
    cases listed
  · intro _ label _ durable keeps step
    cases label with
    | call =>
      obtain ⟨admissible, fresh, walks, rfl⟩ := step
      exact durable.call env admissible fresh walks keeps
    | flush =>
      obtain ⟨walks, rfl⟩ := step
      exact durable.flush walks keeps
    | restart =>
      obtain ⟨_, _, last, ok, iterated, rfl⟩ := step
      exact durable.restart last ok iterated

/-- Runs that were parked in the sink and have ended are not live in it, as long as no
call ends them without a write. -/
theorem finished_runs_stay_finished (env : StoreEnv) {store : PersistingStore}
    (reached : (persistingStore env).Reachable PersistOp.KeepsSink store) :
    store.FinishedStayFinished :=
  (durable reached).settled

/-! ## A parked run that ends -/

theorem reachable_call {guard : PersistingStore → PersistOp → Prop}
    (reached : (persistingStore env).Reachable guard store) {op : StoreOp}
    (admissible : op.Admissible store.inner)
    (fresh : op.DrawsFreshTurn store.inner) (walks : order.Walks (op.apply env store.inner))
    (allowed : guard store (.call op order)) :
    (persistingStore env).Reachable guard (store.call env order op) :=
  .next reached allowed ⟨admissible, fresh, walks, rfl⟩

open turnStore (firstRunOrder firstSubmission sampleEnv sampleScope)

def submittedStore : PersistingStore :=
  (PersistingStore.withBlockPersistence (.withLimits .default) []).call sampleEnv
    firstRunOrder firstSubmission

def claimedStore : PersistingStore :=
  submittedStore.call sampleEnv firstRunOrder (.claimNextRun 0 ⟨⟨7⟩, ⟨8⟩, none⟩)

/-- The run waits for an approval and the sink was told. -/
def parkedStore : PersistingStore :=
  claimedStore.call sampleEnv firstRunOrder
    (.blockRun 0 ⟨⟨⟨1⟩, ⟨7⟩, ⟨8⟩⟩, ⟨5⟩, ⟨"state"⟩, .approval ⟨"gate"⟩⟩)

theorem keepsSink_of_unwritten (unwritten : store.written = [])
    (room : store.persistSeq + 1 < 2 ^ 64) (op : StoreOp) (order : IterationOrder) :
    (PersistOp.call op order).KeepsSink store := by
  refine ⟨room, ?_⟩
  rintro _ ⟨_, listed, _⟩
  rw [unwritten] at listed
  cases listed

theorem parkedStore_reachable :
    (persistingStore sampleEnv).Reachable PersistOp.KeepsSink parkedStore := by
  have submitted : (persistingStore sampleEnv).Reachable PersistOp.KeepsSink
      submittedStore := by
    exact reachable_call (.start ⟨.default, rfl⟩) trivial (by decide) (by decide)
      (keepsSink_of_unwritten rfl (by decide) _ _)
  have claimed : (persistingStore sampleEnv).Reachable PersistOp.KeepsSink
      claimedStore := by
    exact reachable_call submitted trivial (by decide) (by decide)
      (keepsSink_of_unwritten rfl (by decide) _ _)
  exact reachable_call claimed trivial (by decide) (by decide)
      (keepsSink_of_unwritten rfl (by decide) _ _)

/-- The tables once the resumption is remembered. -/
def resumedOrder : IterationOrder :=
  { firstRunOrder with
    idempotencyRecords := persistedRunKey .resume
      ⟨sampleScope .actorFallback, ⟨1⟩, ⟨"resume"⟩⟩ :: firstRunOrder.idempotencyRecords }

def resumedStore : PersistingStore :=
  parkedStore.call sampleEnv resumedOrder
    (.resumeTurn 0 ⟨sampleScope .actorFallback, ⟨⟨"user"⟩⟩, ⟨1⟩, ⟨"gate"⟩, ⟨"source"⟩,
      ⟨"reply"⟩, ⟨"resume"⟩, .anyBlockedGate, none⟩)

def reclaimedStore : PersistingStore :=
  resumedStore.call sampleEnv resumedOrder (.claimNextRun 0 ⟨⟨7⟩, ⟨9⟩, none⟩)

def endedOrder : IterationOrder := { resumedOrder with activeLocks := [] }

def completedStore : PersistingStore :=
  reclaimedStore.call sampleEnv endedOrder (.completeRun 0 ⟨⟨1⟩, ⟨7⟩, ⟨9⟩⟩)

theorem completedStore_reachable :
    (persistingStore sampleEnv).Reachable PersistOp.KeepsSink completedStore := by
  have resumed : (persistingStore sampleEnv).Reachable PersistOp.KeepsSink
      resumedStore := by
    exact reachable_call parkedStore_reachable trivial (by decide) (by decide)
      ⟨by decide, fun _ _ => ⟨id, nofun⟩⟩
  have reclaimed : (persistingStore sampleEnv).Reachable PersistOp.KeepsSink
      reclaimedStore := by
    exact reachable_call resumed trivial (by decide) (by decide)
      ⟨by decide, fun _ _ => ⟨id, nofun⟩⟩
  exact reachable_call reclaimed trivial (by decide) (by decide)
      ⟨by decide, fun _ _ => ⟨id, nofun⟩⟩

/-- The completed run was parked in the sink, and the last snapshot shows it ended. -/
theorem completed_run_stays_finished : completedStore.WroteBlocked ⟨1⟩ ∧
      (completedStore.inner.records.get ⟨1⟩).any (fun record => record.status.isTerminal) = true ∧
      completedStore.FinishedStayFinished :=
  ⟨⟨_, mem_of_getElem? (i := 2) rfl, _, mem_of_mem_head? rfl, rfl, rfl⟩, by decide,
    finished_runs_stay_finished sampleEnv completedStore_reachable⟩

/-! ## A parked run that is cancelled -/

/-- The tables once the cancellation of the parked run is remembered. -/
def cancelledOrder : IterationOrder :=
  { firstRunOrder with
    activeLocks := []
    idempotencyRecords := persistedRunKey .cancel
      ⟨sampleScope .actorFallback, ⟨1⟩, ⟨"cancel"⟩⟩ :: firstRunOrder.idempotencyRecords }

def cancelledStore : PersistingStore :=
  parkedStore.call sampleEnv cancelledOrder
    (.requestCancel 0 ⟨sampleScope .actorFallback, ⟨⟨"user"⟩⟩, ⟨1⟩, .userRequested, ⟨"cancel"⟩⟩)

/-- The cancelled run is still blocked in the last snapshot. -/
theorem cancelled_run_stays_parked :
    (persistingStore turnStore.sampleEnv).Reachable System.anyStep cancelledStore ∧
      (cancelledStore.inner.records.get ⟨1⟩).any
        (fun record => decide (record.status = .cancelled)) = true ∧
      ¬ cancelledStore.FinishedStayFinished := by
  have reached : (persistingStore sampleEnv).Reachable System.anyStep
      cancelledStore := by
    exact reachable_call (parkedStore_reachable.weaken fun _ _ _ => trivial) trivial
      (by decide) (by decide) trivial
  refine ⟨reached, by decide, fun finished => ?_⟩
  have ended := finished ⟨1⟩ _ ⟨_, mem_of_mem_head? rfl, _, mem_of_mem_head? rfl, rfl,
    rfl⟩ rfl rfl _ rfl _ (mem_of_mem_head? rfl) rfl
  cases ended

end persistingStore

end Ironclaw.Turns
