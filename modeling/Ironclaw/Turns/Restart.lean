import Ironclaw.Turns.Simulation

/-!
# The turn store across restarts

A store that is written out and loaded again has the runs, turns, locks and
reservations it had; only the order of its queue and the representation of its
counters may differ.  `restartingStore` is the turn store with restarts among its
steps.
-/

namespace Ironclaw.Turns

open Lib Table LoadedRuns Turns.Inner TurnAdmissionReservationRecord
open List

/-- The reservation that belongs to a run: released once the run has ended. -/
def RunRecord.reservation (record : RunRecord) : TurnAdmissionReservationRecord :=
  { record.canonicalReservation with released := record.status.isTerminal }

variable {record : RunRecord}

/-- What a run keeps fixes its reservation, up to the release. -/
theorem RunRecord.SameRun.canonicalReservation {changed : RunRecord}
    (same : record.SameRun changed) (own : changed.runId = record.runId) :
    changed.canonicalReservation = record.canonicalReservation := by
  unfold RunRecord.canonicalReservation
  rw [own, same.profile, same.scope, same.actor]

variable {opening : Opening}

namespace Roster

/-! ## Turns and reservations -/

/-- Every run belongs to a stored turn of its actor. -/
structure Enrolled (roster : Roster) : Prop where
  turnKeyed : ∀ {turnId turn}, roster.turns.get turnId = some turn → turn.turnId = turnId
  turnOf : ∀ {runId record}, roster.records.get runId = some record →
    ∃ turn, roster.turns.get record.turnId = some turn ∧ turn.actor = record.actor

variable {leaks : Prop} {before after : Roster}

theorem Enrolled.step (step : Step leaks before after)
    (enrolled : before.Enrolled) : after.Enrolled := by
  cases step with
  | @rewrite _ _ ledger books =>
    refine ⟨?_, ?_⟩
    · intro turnId turn stored
      rw [books.turns] at stored
      exact enrolled.turnKeyed stored
    · intro runId candidate found
      rw [ledger.records, get_insert] at found
      rw [books.turns]
      split at found
      · cases found
        rw [books.same.turnId, books.same.actor]
        exact enrolled.turnOf ledger.found
      · exact enrolled.turnOf found
  | @drop _ _ drops =>
    have kept : ∀ {runId candidate}, after.records.get runId = some candidate →
        before.records.get runId = some candidate := by
      intro runId candidate found
      rw [drops.ledger.records] at found
      exact get_of_remove found
    rcases drops.turns with ⟨removed, unnamed⟩ | ⟨same, _⟩
    · refine ⟨?_, ?_⟩
      · intro turnId turn stored
        rw [removed] at stored
        exact enrolled.turnKeyed (get_of_remove stored)
      · intro runId candidate found
        rw [removed, get_remove_of_ne _ (unnamed runId candidate found)]
        exact enrolled.turnOf (kept found)
    · refine ⟨?_, ?_⟩
      · intro _ _ stored
        rw [same] at stored
        exact enrolled.turnKeyed stored
      · intro _ _ found
        rw [same]
        exact enrolled.turnOf (kept found)
  | shuffle _ _ after_eq =>
    subst after_eq
    exact ⟨enrolled.turnKeyed, enrolled.turnOf⟩

theorem Enrolled.opens {lock : TurnActiveLockRecord} (enrolled : before.Enrolled)
    (opens : Opens opening before after record lock)
    (fresh : ∀ turnId, opening.drawnTurn = some turnId → before.turns.get turnId = none) :
    after.Enrolled := by
  rcases opens.turns with ⟨turn, drawn, ofTurn, actor, inserted⟩ | ⟨same, _, _, found⟩
  · refine ⟨?_, ?_⟩
    · intro turnId stored held
      rw [inserted, get_insert] at held
      split at held
      next own => rw [← Option.some.inj held, own]
      · exact enrolled.turnKeyed held
    · intro runId candidate found
      rw [opens.ledger.records, get_insert] at found
      rw [inserted, get_insert]
      split at found
      · cases found
        exact ⟨turn, if_pos ofTurn.symm, actor⟩
      · obtain ⟨earlier, stored, agrees⟩ := enrolled.turnOf found
        refine ⟨earlier, ?_, agrees⟩
        rw [if_neg ?_, stored]
        intro own
        rw [own, fresh _ drawn] at stored
        cases stored
  · refine ⟨?_, ?_⟩
    · intro _ _ stored
      rw [same] at stored
      exact enrolled.turnKeyed stored
    · intro runId _ stored
      rw [opens.ledger.records, get_insert] at stored
      rw [same]
      split at stored
      · cases stored
        rw [← found.2.1, ← found.2.2]
        exact enrolled.turnOf found.1
      · exact enrolled.turnOf stored

/-- Every run has its reservation, and there are no others. -/
def Accounted (roster : Roster) : Prop :=
  ∀ runId, roster.admissionReservations.get runId =
    (roster.records.get runId).map RunRecord.reservation

theorem Accounted.step (orderly : before.Orderly)
    (step : Step leaks before after) (accounted : before.Accounted) : after.Accounted := by
  intro runId
  cases step with
  | @rewrite previous record ledger books =>
    have own : record.runId = previous.runId := (orderly.keyed ledger.found).symm
    have canonical := books.same.canonicalReservation own
    have held := accounted record.runId
    rw [ledger.found, Option.map_some] at held
    rw [books.admission, ledger.records, get_insert]
    by_cases same : runId = record.runId
    · subst same
      rw [if_pos rfl, Option.map_some]
      split
      next ended =>
        rw [get_modify, if_pos rfl, held, Option.map_some]
        simp only [RunRecord.reservation, canonical, ended]
      next live =>
        rw [held]
        simp only [RunRecord.reservation, canonical, ledger.wasLive, Bool.eq_false_iff.mpr live]
    · split
      · rw [get_modify, if_neg same]
        exact accounted runId
      · exact accounted runId
  | drop drops =>
    rw [drops.admission, drops.ledger.records, get_remove, get_remove]
    split
    · rfl
    · exact accounted runId
  | shuffle _ _ after_eq =>
    subst after_eq
    exact accounted runId

theorem Accounted.opens {lock : TurnActiveLockRecord} (accounted : before.Accounted)
    (opens : Opens opening before after record lock) : after.Accounted := by
  intro runId
  rw [opens.admission, opens.ledger.records, get_insert, get_insert]
  split
  · rw [Option.map_some, RunRecord.reservation, opens.queued]
    rfl
  · exact accounted runId

structure Sound (roster : Roster) : Prop where
  orderly : roster.Orderly
  enrolled : roster.Enrolled
  accounted : roster.Accounted

theorem Sound.step (sound : before.Sound) (step : Step leaks before after) : after.Sound :=
  ⟨sound.orderly.step step, sound.enrolled.step step, sound.accounted.step sound.orderly step⟩

theorem Sound.move {opening? : Option Opening}
    (sound : before.Sound) (move : Move leaks opening? before after)
    (fresh : ∀ opening turnId, opening? = some opening → opening.drawnTurn = some turnId →
      before.turns.get turnId = none) : after.Sound := by
  cases move with
  | opened opening given _ _ opens =>
    exact ⟨sound.orderly.opens opens,
      sound.enrolled.opens opens fun turnId => fresh opening turnId given,
      sound.accounted.opens opens⟩
  | moved steps =>
    induction steps with
    | refl => exact sound
    | tail _ last ih => exact ih.step last

theorem sound_withLimits (limits : InMemoryTurnStateStoreLimits) :
    (withLimits limits).roster.Sound where
  orderly := orderly_withLimits limits
  enrolled := by
    constructor <;> intro key row stored <;>
      simp [roster, ledger, withLimits] at stored
  accounted := by
    intro _
    simp [roster, ledger, withLimits]

end Roster

/-! ## Loading what was written -/

namespace LoadedRuns

variable (activeLocks : Table TurnActiveLockKey TurnActiveLockRecord) (rows : List RunRecord)
    (loaded : LoadedRuns)

theorem load_of_enrolled {turns : Table TurnId TurnRecord}
    (enrolled : ∀ row ∈ rows, ∃ turn, turns.get row.turnId = some turn ∧ turn.actor = row.actor) :
    load turns activeLocks (rows.map RunRecord.persistenceRecord) loaded =
      .ok (rows.foldl (add activeLocks) loaded) := by
  induction rows generalizing loaded with
  | nil => rfl
  | cons row _ ih =>
    obtain ⟨turn, stored, actor⟩ := enrolled row mem_cons_self
    rw [map_cons, load]
    rw [show (turns.get row.persistenceRecord.turnId) = some turn from stored]
    dsimp only
    rw [actor]
    exact ih _ fun other later => enrolled other (mem_cons_of_mem _ later)

theorem foldl_add_records : (rows.foldl (add activeLocks) loaded).records =
      collectInto RunRecord.runId rows loaded.records := by
  induction rows generalizing loaded with
  | nil => rfl
  | cons _ _ ih => exact ih _

theorem foldl_add_queuedRuns : (rows.foldl (add activeLocks) loaded).queuedRuns =
      loaded.queuedRuns ++ (rows.filter (queueable activeLocks)).map RunRecord.runId := by
  induction rows generalizing loaded with
  | nil => simp
  | cons row _ ih =>
    rw [foldl_cons, ih]
    cases waits : queueable activeLocks row <;> simp [add, waits]

end LoadedRuns

theorem Roster.Orderly.queueable_eq {roster : Roster} (orderly : roster.Orderly)
    {runId : TurnRunId} (found : roster.records.get runId = some record) :
    queueable roster.activeLocks record = record.isQueued := by
  unfold queueable
  cases waits : record.isQueued with
  | false =>
    rw [show decide (record.status = .queued) = false from waits]
    rfl
  | true =>
    have queued : record.status = .queued := of_decide_eq_true waits
    have quiet : (roster.activeLocks.anyValue fun lock =>
        decide (lock.runId = record.runId) && decide (lock.status ≠ .queued)) = false := by
      rw [Bool.eq_false_iff]
      intro differs
      obtain ⟨_, _, held, test⟩ := (anyValue_iff _ _).mp differs
      simp only [Bool.and_eq_true, decide_eq_true_eq] at test
      obtain ⟨_, foundOwner, _, atKey⟩ := orderly.runOfLock held
      rw [test.1, orderly.keyed found, found] at foundOwner
      cases foundOwner
      obtain ⟨_, ownHeld, _, agrees⟩ := orderly.lockOfRun found (by rw [queued]; rfl)
      rw [← atKey, held] at ownHeld
      cases ownHeld
      exact test.2 (agrees.trans queued)
    rw [show decide (record.status = .queued) = true from waits, quiet]
    rfl

section

variable {records : Table TurnRunId RunRecord}

theorem foldl_loadReservation (rows : List TurnAdmissionReservationRecord)
    (reservations : Table TurnRunId TurnAdmissionReservationRecord)
    (belongs : ∀ row ∈ rows, ∃ record, records.get row.runId = some record ∧
      row = record.reservation) :
    rows.foldl (loadReservation records) reservations =
      collectInto runId rows reservations := by
  induction rows generalizing reservations with
  | nil => rfl
  | cons row _ ih =>
    obtain ⟨record, found, same⟩ := belongs row mem_cons_self
    rw [foldl_cons, loadReservation, found]
    have kept : { row with released := record.status.isTerminal || row.released } = row := by
      rw [same]
      simp [RunRecord.reservation]
    simp only [kept]
    exact ih _ fun other later => belongs other (mem_cons_of_mem _ later)

/-- No live run needs a new reservation when all have theirs. -/
theorem foldl_restoreReservation (rows : List RunRecord)
    (reservations : Table TurnRunId TurnAdmissionReservationRecord)
    (held : ∀ row ∈ rows, reservations.get row.runId = some row.reservation) :
    rows.foldl restoreReservation reservations = reservations := by
  induction rows with
  | nil => rfl
  | cons row _ ih =>
    have unchanged : restoreReservation reservations row = reservations := by
      unfold restoreReservation
      rw [held row mem_cons_self]
      cases ended : row.status.isTerminal <;>
        simp [TurnStatus.keepsActiveLock, RunRecord.reservation, ended]
    rw [foldl_cons, unchanged]
    exact ih fun other later => held other (mem_cons_of_mem _ later)

end

variable {inner : Inner}

namespace Inner

def concurrencyLimits (limits : InMemoryTurnStateStoreLimits) : ConcurrencyLimits :=
  ⟨limits.maxConcurrentRunsPerUser, limits.maxConcurrentTriggerRuns,
    limits.maxConcurrentConversationRuns⟩

/-- The counters a restart builds from the runs that hold a runner. -/
def rebuiltLimiter (inner : Inner) (limits : InMemoryTurnStateStoreLimits)
    (order : IterationOrder) : ConcurrencyLimiter :=
  .rebuildFrom (concurrencyLimits limits)
    (((inner.records.valuesIn order.loadedRecords).filter fun record =>
      holdsRunningSlot record.status).map slotInfoFor)

variable {order : IterationOrder}

theorem mem_persistenceSnapshot_runs
    (iterated : inner.records.IteratedBy order.records) {row : TurnRunRecord} :
    row ∈ (inner.persistenceSnapshot order).runs ↔
      ∃ runId record, inner.records.get runId = some record ∧ record.persistenceRecord = row := by
  unfold persistenceSnapshot
  rw [(sortByKey_perm _ _).mem_iff, mem_map]
  constructor
  · rintro ⟨record, listed, rfl⟩
    obtain ⟨runId, found⟩ := (mem_valuesIn iterated).mp listed
    exact ⟨runId, record, found, rfl⟩
  · rintro ⟨runId, record, found, rfl⟩
    exact ⟨record, (mem_valuesIn iterated).mpr ⟨runId, found⟩, rfl⟩

structure Reloaded (inner reloaded : Inner) (limits : InMemoryTurnStateStoreLimits)
    (order : IterationOrder) : Prop where
  turns : reloaded.turns = inner.turns
  records : reloaded.records = inner.records
  activeLocks : reloaded.activeLocks = inner.activeLocks
  queue : ∀ runId, reloaded.queuedRuns.count runId = inner.queuedRuns.count runId
  admission : reloaded.admissionReservations = inner.admissionReservations
  concurrency : reloaded.concurrency = inner.rebuiltLimiter limits order
  memory : reloaded.memory = .load (inner.persistenceSnapshot order).idempotencyRecords
  configured : reloaded.limits = limits

theorem loadReservations_of_sound (sound : inner.roster.Sound) (walks : order.Walks inner) :
    loadReservations inner.records order.loadedRecords
      (inner.persistenceSnapshot order).admissionReservations = inner.admissionReservations := by
  have belongs : ∀ {runId row}, inner.admissionReservations.get runId = some row →
      ∃ record, inner.records.get runId = some record ∧ record.reservation = row := by
    intro runId row held
    exact Option.map_eq_some_iff.mp ((sound.accounted runId).symm.trans held)
  have keyed : ∀ {runId row}, inner.admissionReservations.get runId = some row →
      row.runId = runId := by
    intro runId row held
    obtain ⟨record, found, rfl⟩ := belongs held
    exact sound.orderly.keyed found
  have written : (inner.persistenceSnapshot order).admissionReservations.Perm
      (inner.admissionReservations.valuesIn order.admissionReservations) := sortByKey_perm _ _
  have collected : collectInto runId
      (inner.persistenceSnapshot order).admissionReservations .empty =
        inner.admissionReservations :=
    collect_of_perm walks.admissionReservations keyed written
  unfold loadReservations
  rw [foldl_loadReservation, collected, foldl_restoreReservation]
  · intro record listed
    obtain ⟨runId, found⟩ := (mem_valuesIn walks.loadedRecords).mp listed
    have held := sound.accounted runId
    rw [show inner.roster.records.get runId = some record from found] at held
    rw [sound.orderly.keyed found]
    exact held
  · intro row listed
    obtain ⟨_, held⟩ := (mem_valuesIn walks.admissionReservations).mp (written.mem_iff.mp listed)
    obtain ⟨record, found, same⟩ := belongs held
    exact ⟨record, keyed held ▸ found, same.symm⟩

theorem reload_of_sound (sound : inner.roster.Sound)
    (walks : order.Walks inner) (limits : InMemoryTurnStateStoreLimits) :
    ∃ reloaded, inner.reload limits order = .ok reloaded ∧
      inner.Reloaded reloaded limits order := by
  have keyed : ∀ {runId record}, inner.records.get runId = some record →
      record.runId = runId := sound.orderly.keyed
  have turns : collect TurnRecord.turnId (inner.persistenceSnapshot order).turns =
      inner.turns :=
    collect_of_perm walks.turns sound.enrolled.turnKeyed
      (sortByKey_perm _ _)
  have activeLocks : collect TurnActiveLockRecord.key
      (inner.persistenceSnapshot order).activeLocks = inner.activeLocks :=
    collect_of_perm walks.activeLocks sound.orderly.lockKeyed
      (sortByKey_perm _ _)
  -- The sorted rows are the rows of the sorted runs.
  obtain ⟨runs, written, sorted⟩ : ∃ runs : List RunRecord,
      runs.Perm (inner.records.valuesIn order.records) ∧
        (inner.persistenceSnapshot order).runs = runs.map RunRecord.persistenceRecord :=
    ⟨_, sortByKey_perm _ _,
      (map_insertionSort _ _ RunRecord.persistenceRecord _ fun _ _ _ _ => Iff.rfl).symm⟩
  have stored : ∀ row ∈ runs, ∃ runId, inner.records.get runId = some row := fun row listed =>
    (mem_valuesIn walks.records).mp (written.mem_iff.mp listed)
  have loaded : load inner.turns inner.activeLocks
      (inner.persistenceSnapshot order).runs .empty =
        .ok (runs.foldl (add inner.activeLocks) .empty) := by
    rw [sorted]
    refine load_of_enrolled _ _ _ fun row listed => ?_
    obtain ⟨runId, found⟩ := stored row listed
    exact sound.enrolled.turnOf found
  have records : (runs.foldl (add inner.activeLocks) .empty).records =
      inner.records := by
    rw [foldl_add_records]
    exact collect_of_perm walks.records keyed written
  have queue : ∀ runId, (runs.foldl (add inner.activeLocks) .empty).queuedRuns.count
      runId = inner.queuedRuns.count runId := by
    intro runId
    have waiting : runs.filter (queueable inner.activeLocks) =
        runs.filter RunRecord.isQueued := by
      apply filter_congr
      intro row listed
      obtain ⟨_, found⟩ := stored row listed
      exact sound.orderly.queueable_eq found
    rw [foldl_add_queuedRuns, waiting]
    exact (count_map_filter walks.records keyed written _ _).trans
      (sound.orderly.queue runId).symm
  unfold reload fromPersistenceSnapshot
  simp only [turns, activeLocks, loaded, records, loadReservations_of_sound sound walks]
  exact ⟨_, rfl, rfl, rfl, rfl, queue, rfl, rfl, rfl, rfl⟩

theorem Reloaded.sound {reloaded : Inner} {limits : InMemoryTurnStateStoreLimits}
    (loaded : inner.Reloaded reloaded limits order)
    (sound : inner.roster.Sound) : reloaded.roster.Sound := by
  have ledger : reloaded.ledger = inner.ledger := by
    unfold ledger
    rw [loaded.records, loaded.activeLocks]
  have records : reloaded.roster.records = inner.roster.records := loaded.records
  have turns : reloaded.roster.turns = inner.roster.turns := loaded.turns
  refine ⟨⟨?_, ?_, ?_⟩, ⟨?_, ?_⟩, ?_⟩
  · rw [show reloaded.roster.toLedger = inner.roster.toLedger from ledger]
    exact sound.orderly.toAgreement
  · rw [show reloaded.roster.activeLocks = inner.roster.activeLocks from loaded.activeLocks]
    exact sound.orderly.lockKeyed
  · intro runId
    rw [records]
    exact (loaded.queue runId).trans (sound.orderly.queue runId)
  · rw [turns]
    exact sound.enrolled.turnKeyed
  · rw [records, turns]
    exact sound.enrolled.turnOf
  · intro runId
    rw [records]
    exact (congrArg (fun table => table.get runId) loaded.admission).trans (sound.accounted runId)

end Inner

/-! ## Runs with restarts -/

inductive RestartOp where
  | call (op : StoreOp)
  /-- The store is written out and loaded again, possibly with other limits. -/
  | restart (limits : InMemoryTurnStateStoreLimits) (order : IterationOrder)

/-- The turn identifier a submission draws is not in use: `TurnId::new` draws a random
UUID. -/
def StoreOp.DrawsFreshTurn (inner : Inner) (op : StoreOp) : Prop :=
  ∀ opening turnId, op.opening = some opening → opening.drawnTurn = some turnId →
    inner.turns.get turnId = none

instance (op : StoreOp) (inner : Inner) : Decidable (op.DrawsFreshTurn inner) :=
  decidable_of_iff (∀ opening ∈ op.opening, ∀ turnId ∈ opening.drawnTurn,
    inner.turns.get turnId = none)
    ⟨fun fresh opening turnId given => fresh opening given turnId,
      fun fresh opening given turnId => fresh opening turnId given⟩

def restartingStore (env : StoreEnv) : System Inner RestartOp where
  init inner := ∃ limits, inner = withLimits limits
  step before label after :=
    match label with
    | .call op => op.Admissible before ∧ op.DrawsFreshTurn before ∧ after = op.apply env before
    | .restart limits order => order.Walks before ∧ before.reload limits order = .ok after

namespace restartingStore

variable {env : StoreEnv} {guard : Inner → RestartOp → Prop}

theorem reachable_call (reached : (restartingStore env).Reachable guard inner)
    (op : StoreOp) (admissible : op.Admissible inner) (fresh : op.DrawsFreshTurn inner)
    (allowed : guard inner (.call op)) :
    (restartingStore env).Reachable guard (op.apply env inner) :=
  .next reached allowed ⟨admissible, fresh, rfl⟩

theorem reachable_calls (ops : List StoreOp) (reached : (restartingStore env).Reachable guard inner)
    (allowed : System.AllowedAlong
      (fun state op => op.Admissible state ∧ op.DrawsFreshTurn state ∧ guard state (.call op))
      (fun state op => op.apply env state) inner ops) :
    (restartingStore env).Reachable guard
      (ops.foldl (fun state op => op.apply env state) inner) :=
  reached.along .call ops allowed fun _ _ ⟨admissible, fresh, permitted⟩ =>
    ⟨permitted, admissible, fresh, rfl⟩

/-- A property of the roster that moves and restarts of a sound roster keep holds in
every state, and the roster is sound there. -/
theorem invariant (property : Roster → Prop)
    (atStart : ∀ limits, property (withLimits limits).roster)
    (moved : ∀ {inner : Inner} {op : StoreOp} {after : Roster}, inner.roster.Sound →
      property inner.roster → guard inner (.call op) →
      Roster.Move (op.OrphansTurn inner) op.opening inner.roster after → property after)
    (restarted : ∀ {inner reloaded : Inner} {limits order}, inner.roster.Sound →
      property inner.roster → guard inner (.restart limits order) → order.Walks inner →
      inner.Reloaded reloaded limits order → property reloaded.roster)
    (reached : (restartingStore env).Reachable guard inner) :
    inner.roster.Sound ∧ property inner.roster := by
  refine reached.invariant (fun state => state.roster.Sound ∧ property state.roster) ?_ ?_
  · rintro _ ⟨limits, rfl⟩
    exact ⟨Roster.sound_withLimits limits, atStart limits⟩
  · rintro _ (op | ⟨limits, _⟩) _ ⟨sound, holds⟩ allowed step
    · obtain ⟨admissible, fresh, rfl⟩ := step
      have move := op.apply_roster env sound.orderly admissible
      exact ⟨sound.move move fresh, moved sound holds allowed move⟩
    · obtain ⟨walks, loaded⟩ := step
      obtain ⟨_, ok, facts⟩ := reload_of_sound sound walks limits
      rw [ok] at loaded
      cases loaded
      exact ⟨facts.sound sound, restarted sound holds allowed walks facts⟩

theorem sound (reached : (restartingStore env).Reachable guard inner) : inner.roster.Sound :=
  (invariant (fun _ => True) (fun _ => trivial) (fun _ _ _ _ => trivial)
    (fun _ _ _ _ _ => trivial) reached).1

end restartingStore

end Ironclaw.Turns
