import Ironclaw.Turns.Capacity

/-!
# Turns and their runs

Every run names a stored turn.  The converse, that every turn is named by a run, is
kept by every step but one: when the release of the last child retires the root of a
spawn tree and the queue of ended runs is full, the root's record is dropped and its
turn is left behind.
-/

namespace Ironclaw.Turns

open Lib Table

namespace Roster

def TurnsNamed (roster : Roster) : Prop :=
  ∀ turnId turn, roster.turns.get turnId = some turn →
    ∃ runId record, roster.records.get runId = some record ∧ record.turnId = turnId

theorem TurnsNamed.step {leaks : Prop} {before after : Roster} (named : before.TurnsNamed)
    (step : Step leaks before after) (tight : ¬ leaks) : after.TurnsNamed := by
  intro turnId turn stored
  cases step with
  | @rewrite _ record ledger books =>
    rw [books.turns] at stored
    obtain ⟨runId, candidate, found, names⟩ := named turnId turn stored
    by_cases own : runId = record.runId
    · refine ⟨runId, record, by rw [ledger.records, own, get_insert_self], ?_⟩
      rw [own, ledger.found] at found
      cases found
      exact books.same.turnId.trans names
    · exact ⟨runId, candidate, by rw [ledger.records, get_insert_of_ne _ _ own, found], names⟩
  | @drop _ dropped drops =>
    rcases drops.turns with ⟨removed, _⟩ | ⟨same, leak | ⟨other, sibling, kept, shared⟩⟩
    · rw [removed, get_remove] at stored
      split at stored
      · cases stored
      rename_i different
      obtain ⟨runId, candidate, found, names⟩ := named turnId turn stored
      refine ⟨runId, candidate, ?_, names⟩
      rw [drops.ledger.records, get_remove_of_ne _ ?_, found]
      rintro rfl
      rw [drops.ledger.found] at found
      cases found
      exact different names.symm
    · exact absurd leak tight
    · rw [same] at stored
      obtain ⟨runId, candidate, found, names⟩ := named turnId turn stored
      by_cases own : runId = dropped
      · rw [own, drops.ledger.found] at found
        cases found
        exact ⟨other, sibling, kept, shared.trans names⟩
      · exact ⟨runId, candidate, by rw [drops.ledger.records, get_remove_of_ne _ own, found], names⟩
  | shuffle _ _ after_eq =>
    subst after_eq
    exact named turnId turn stored

theorem TurnsNamed.opens {opening : Opening} {before after : Roster} {record : RunRecord}
    {lock : TurnActiveLockRecord} (named : before.TurnsNamed)
    (opens : Opens opening before after record lock) : after.TurnsNamed := by
  have kept : ∀ {turnId turn}, before.turns.get turnId = some turn →
      ∃ runId candidate, after.records.get runId = some candidate ∧ candidate.turnId = turnId := by
    intro turnId turn stored
    obtain ⟨runId, candidate, found, names⟩ := named turnId turn stored
    refine ⟨runId, candidate, ?_, names⟩
    rw [opens.ledger.records, get_insert_of_ne _ _ ?_, found]
    rintro rfl
    rw [opens.ledger.fresh] at found
    cases found
  intro _ _ stored
  rcases opens.turns with ⟨_, _, ofTurn, _, inserted⟩ | ⟨same, _⟩
  · rw [inserted, get_insert] at stored
    split at stored
    next own =>
      exact ⟨record.runId, record, by rw [opens.ledger.records, get_insert_self],
        by rw [own, ofTurn]⟩
    · exact kept stored
  · rw [same] at stored
    exact kept stored

end Roster

/-- The step does not retire the last run of a turn into a full queue. -/
def RestartOp.KeepsTurns (inner : Inner) : RestartOp → Prop
  | .call op => ¬ op.OrphansTurn inner
  | .restart _ _ => True

def Inner.TurnsMatchRuns (inner : Inner) : Prop :=
  (∀ runId record, inner.records.get runId = some record →
    ∃ turn, inner.turns.get record.turnId = some turn) ∧
  ∀ turnId turn, inner.turns.get turnId = some turn →
    ∃ runId record, inner.records.get runId = some record ∧ record.turnId = turnId

namespace restartingStore

theorem turns_match_runs (env : StoreEnv) {inner : Inner}
    (reached : (restartingStore env).Reachable RestartOp.KeepsTurns inner) :
    inner.TurnsMatchRuns := by
  have both := invariant Roster.TurnsNamed ?_ ?_ ?_ reached
  · refine ⟨fun runId record found => ?_, both.2⟩
    obtain ⟨turn, stored, _⟩ := both.1.enrolled.turnOf found
    exact ⟨turn, stored⟩
  · intro limits turnId turn stored
    simp [Inner.roster, Inner.withLimits] at stored
  · intro before _ _ _ named tight move
    cases move with
    | opened _ _ _ _ opens => exact named.opens opens
    | moved steps =>
      induction steps with
      | refl => exact named
      | tail _ last ih => exact ih.step last tight
  · intro before reloaded _ _ _ named _ _ loaded turnId turn stored
    rw [show reloaded.roster.turns = before.roster.turns from loaded.turns] at stored
    rw [show reloaded.roster.records = before.roster.records from loaded.records]
    exact named turnId turn stored

/-! ## A root that is released last -/

/-- The root of a tree ends, a second run ends and takes its place in the queue, and the
last child of the tree is released. -/
def releaseSteps : List StoreOp :=
  [turnStore.firstSubmission,
    .reserveTreeDescendants (turnStore.sampleScope .actorFallback) ⟨1⟩ 1 5,
    .claimNextRun 0 ⟨⟨7⟩, ⟨8⟩, none⟩, .completeRun 0 ⟨⟨1⟩, ⟨7⟩, ⟨8⟩⟩,
    turnStore.submissionOn turnStore.otherScope "other" 2,
    .claimNextRun 0 ⟨⟨7⟩, ⟨8⟩, none⟩, .completeRun 0 ⟨⟨2⟩, ⟨7⟩, ⟨8⟩⟩,
    .releaseTreeDescendants (turnStore.sampleScope .actorFallback) ⟨1⟩ 1 ⟨9⟩]

def releasedStore (limits : InMemoryTurnStateStoreLimits) : Inner :=
  releaseSteps.foldl (fun inner op => op.apply turnStore.sampleEnv inner) (.withLimits limits)

/-- With room for both runs the released root keeps its turn and its run. -/
theorem turns_match_runs_after_release : (releasedStore .default).TurnsMatchRuns ∧
    ((releasedStore .default).turns.get ⟨1⟩).isSome = true ∧
    ((releasedStore .default).turns.get ⟨2⟩).isSome = true := by
  have room : ∀ {inner : Inner} {scope root delta child},
      inner.terminalRuns.length < inner.limits.maxTerminalRecords →
      ¬ inner.ReleaseOrphansTurn scope root delta child := by
    rintro _ _ _ _ _ room ⟨_, _, _, _, _, _, _, _, _, _, full, _⟩
    exact Nat.not_lt.mpr full room
  refine ⟨turns_match_runs turnStore.sampleEnv ?_, by decide, by decide⟩
  refine reachable_calls releaseSteps (.start ⟨.default, rfl⟩) ?_
  iterate 7
    refine ⟨⟨trivial, by decide, id⟩, ?_⟩
  exact ⟨⟨trivial, by decide, room (by decide)⟩, trivial⟩

def oneTerminalRecord : InMemoryTurnStateStoreLimits :=
  { InMemoryTurnStateStoreLimits.default with maxTerminalRecords := 1 }

def orphanedStore : Inner := releasedStore oneTerminalRecord

theorem orphanedStore_reachable :
    (restartingStore turnStore.sampleEnv).Reachable System.anyStep orphanedStore := by
  unfold orphanedStore releasedStore
  refine reachable_calls releaseSteps (.start ⟨oneTerminalRecord, rfl⟩) ?_
  iterate 8
    refine ⟨⟨trivial, by decide, trivial⟩, ?_⟩
  trivial

/-- The root's turn is stored and no run is left that names it. -/
theorem released_root_leaves_its_turn :
    (restartingStore turnStore.sampleEnv).Reachable System.anyStep orphanedStore ∧
      (orphanedStore.turns.get ⟨1⟩).isSome = true ∧ ¬ orphanedStore.TurnsMatchRuns := by
  refine ⟨orphanedStore_reachable, by decide, ?_⟩
  rintro ⟨_, named⟩
  obtain ⟨turn, stored⟩ := Option.isSome_iff_exists.mp
    (show (orphanedStore.turns.get ⟨1⟩).isSome = true by decide)
  obtain ⟨runId, record, found, names⟩ := named ⟨1⟩ turn stored
  have unnamed : orphanedStore.records.anyValue (fun candidate => candidate.turnId = ⟨1⟩) =
      false := by decide
  rw [Bool.eq_false_iff] at unnamed
  exact unnamed ((anyValue_iff _ _).mpr ⟨runId, record, found, decide_eq_true names⟩)

end restartingStore

end Ironclaw.Turns
