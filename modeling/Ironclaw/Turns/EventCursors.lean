import Mathlib.Data.List.Fold
import Mathlib.Data.List.MinMax
import Ironclaw.Turns.EventLog
import Ironclaw.Turns.Locks
import Ironclaw.Turns.Restart

/-!
# Event cursors over whole runs

The store with the list of all events its operations wrote, and with restarts between its
calls.  As long as the cursor does not saturate, the log holds exactly the events above the
retention floor, in order, and a restart finds the last cursor again in the snapshot.
-/

namespace Ironclaw.Turns

open Lib
open List

variable (env : StoreEnv)

/-- The turn store with restarts, and all events ever written. -/
def eventStore : System (Inner × List TurnLifecycleEvent) RestartOp where
  init state := ∃ limits, state = (Inner.withLimits limits, [])
  step before label after :=
    match label with
    | .call op =>
      op.Admissible before.1 ∧ after = (op.apply env before.1, before.2 ++ op.emitted env before.1)
    | .restart limits order =>
      order.Walks before.1 ∧ before.1.reload limits order = .ok after.1 ∧ after.2 = before.2

/-- The operation draws no cursor beyond the end of the counter. -/
def StoreOp.Unsaturated (inner : Inner) (op : StoreOp) : Prop :=
  inner.cursor + (op.emitted env inner).length ≤ u64Max

def RestartOp.Unsaturated (state : Inner × List TurnLifecycleEvent) : RestartOp → Prop
  | .call op => op.Unsaturated env state.1
  | .restart _ _ => True

/-- The event log of a store from which the events of the list were written. -/
structure Inner.EventsInOrder (inner : Inner) (issued : List TurnLifecycleEvent) : Prop where
  increasing : inner.events.Pairwise fun left right => left.cursor.value < right.cursor.value
  aboveFloor : ∀ event ∈ inner.events, inner.eventRetentionFloor.value < event.cursor.value
  bounded : ∀ event ∈ inner.events, event.cursor.value ≤ inner.cursor
  runsBounded : ∀ runId record, inner.records.get runId = some record →
    record.eventCursor.value ≤ inner.cursor
  retained : ∀ event ∈ issued, event ∈ inner.events ∨
    event.cursor.value ≤ inner.eventRetentionFloor.value

variable {inner : Inner} {issued : List TurnLifecycleEvent}

namespace Inner

structure Logged (inner : Inner) (issued : List TurnLifecycleEvent) : Prop where
  covers : BoundedLog.Covers eventStamp inner.log issued inner.cursor
  within : Within inner.records inner.cursor

theorem Logged.eventsInOrder (logged : inner.Logged issued) : inner.EventsInOrder issued where
  increasing := logged.covers.ordered
  aboveFloor := logged.covers.above
  bounded := logged.covers.bounded
  runsBounded := logged.within
  retained := logged.covers.kept

/-! ## Calls -/

theorem Counted.numbered {before after : Nat} {events : List TurnLifecycleEvent}
    (counted : Counted before events after) (room : before + events.length ≤ u64Max) :
    BoundedLog.Numbered eventStamp before events ∧ after = before + events.length := by
  induction events generalizing before with
  | nil => exact ⟨fun _ inside => absurd inside (Nat.not_lt_zero _), counted⟩
  | cons _ _ ih =>
    rw [length_cons] at room
    have next : saturatingAdd before 1 = before + 1 := Nat.min_eq_left (by omega)
    obtain ⟨stamp, later⟩ := counted
    rw [next] at stamp later
    obtain ⟨numbered, last⟩ := ih later (by omega)
    refine ⟨fun index inside => ?_, by rw [last, length_cons]; omega⟩
    cases index with
    | zero => exact stamp
    | succ index =>
      have value := numbered index (Nat.lt_of_succ_lt_succ inside)
      rw [getElem_cons_succ, value]
      omega

theorem Logged.apply (logged : inner.Logged issued) (env : StoreEnv) (op : StoreOp)
    (room : op.Unsaturated env inner) :
    (op.apply env inner).Logged (issued ++ op.emitted env inner) := by
  have emits := op.apply_emits env inner
  obtain ⟨numbered, cursor⟩ := emits.counted.numbered room
  have last : (op.apply env inner).cursor = inner.cursor + (op.emitted env inner).length := cursor
  have log : (op.apply env inner).log = inner.log.pushAll eventStamp (op.emitted env inner) :=
    congrArg (fun result => result.2.log) (emits.onLog inner.log)
  constructor
  · rw [log, last]
    exact logged.covers.pushAll numbered
  · refine emits.within _ (fun event listed => ?_) fun runId record found => ?_
    · obtain ⟨index, inside, rfl⟩ := mem_iff_getElem.mp listed
      rw [numbered index inside, last]
      omega
    · have low := logged.within runId record found
      rw [last]
      omega

/-- A new event is above every cursor the store has given out. -/
theorem cursor_lt_emitted (env : StoreEnv) (inner : Inner) (op : StoreOp)
    (room : op.Unsaturated env inner) {event : TurnLifecycleEvent}
    (listed : event ∈ op.emitted env inner) : inner.cursor < event.cursor.value := by
  obtain ⟨numbered, _⟩ := (op.apply_emits env inner).counted.numbered room
  obtain ⟨index, inside, rfl⟩ := mem_iff_getElem.mp listed
  have value : _ = inner.cursor + index + 1 := numbered index inside
  unfold eventStamp at value
  omega

end Inner

/-! ## Restarts -/

namespace LoadedRuns

theorem load_cursor {turns : Table TurnId TurnRecord}
    {activeLocks : Table TurnActiveLockKey TurnActiveLockRecord} {rows : List TurnRunRecord}
    {loaded result : LoadedRuns} {bound : Nat}
    (ok : load turns activeLocks rows loaded = .ok result)
    (within : Inner.Within loaded.records loaded.cursor) (low : loaded.cursor ≤ bound)
    (stamps : ∀ row ∈ rows, row.eventCursor.value ≤ bound) :
    Inner.Within result.records result.cursor ∧ result.cursor ≤ bound := by
  induction rows generalizing loaded with
  | nil =>
    cases ok
    exact ⟨within, low⟩
  | cons _ _ ih =>
    rw [forall_mem_cons] at stamps
    unfold load at ok
    split at ok
    · cases ok
    rename_i turn _
    refine ih ok ?_ (Nat.max_le.mpr ⟨low, stamps.1⟩) stamps.2
    refine Inner.Within.insert (fun runId record found => ?_) (Nat.le_max_right _ _)
    exact Nat.le_trans (within runId record found) (Nat.le_max_left _ _)

end LoadedRuns

namespace Inner

theorem Logged.reload {reloaded : Inner}
    (logged : inner.Logged issued) {limits : InMemoryTurnStateStoreLimits}
    {order : IterationOrder} (walks : order.Walks inner)
    (ok : inner.reload limits order = .ok reloaded) :
    reloaded.Logged issued ∧ reloaded.cursor = inner.cursor := by
  unfold Inner.reload fromPersistenceSnapshot at ok
  dsimp only at ok
  split at ok
  · cases ok
  rename_i runs loaded
  cases ok
  obtain ⟨within, low⟩ := LoadedRuns.load_cursor loaded (fun _ _ found => by cases found)
    (Nat.zero_le inner.cursor) fun row listed => by
      obtain ⟨runId, record, found, rfl⟩ := (mem_persistenceSnapshot_runs walks.records).mp listed
      exact logged.within runId record found
  have covers := logged.covers
  have lastEvent : (inner.events.map fun event => event.cursor.value).foldl max 0 ≤
      inner.cursor := by
    rw [foldl_eq_foldr]
    refine max_le_of_forall_le _ _ fun value listed => ?_
    obtain ⟨event, present, rfl⟩ := mem_map.mp listed
    exact covers.bounded event present
  -- The last cursor is the floor or the cursor of a retained event.
  have cursor : max (max runs.cursor ((inner.events.map fun event =>
      event.cursor.value).foldl max 0)) inner.eventRetentionFloor.value = inner.cursor := by
    refine Nat.le_antisymm (Nat.max_le.mpr ⟨Nat.max_le.mpr ⟨low, lastEvent⟩, covers.floor_le⟩) ?_
    rcases covers.reaches with atFloor | ⟨event, present, stamp⟩
    · exact Nat.le_trans (Nat.le_of_eq atFloor.symm) (Nat.le_max_right _ _)
    rw [foldl_eq_foldr]
    have listed := le_max_of_le (mem_map.mpr ⟨event, present, rfl⟩) stamp.ge
    exact Nat.le_trans listed (Nat.le_trans (Nat.le_max_right _ _) (Nat.le_max_left _ _))
  refine ⟨⟨?_, fun runId record found => ?_⟩, cursor⟩
  · -- What the log covers does not depend on its capacity.
    refine cursor.symm ▸ ?_
    exact ⟨covers.ordered, covers.above, covers.bounded, covers.kept, covers.reaches,
      covers.floor_le⟩
  · exact Nat.le_trans (within runId record found)
      (Nat.le_trans (Nat.le_max_left _ _) (Nat.le_max_left _ _))

end Inner

namespace eventStore

variable {env : StoreEnv}

theorem logged {state : Inner × List TurnLifecycleEvent}
    (reached : (eventStore env).Reachable (RestartOp.Unsaturated env) state) :
    state.1.Logged state.2 := by
  refine reached.invariant (fun state => state.1.Logged state.2) ?_ ?_
  · rintro _ ⟨limits, rfl⟩
    exact ⟨BoundedLog.Covers.empty limits.maxEvents, fun _ _ found => by cases found⟩
  · rintro _ (op | ⟨_, _⟩) _ logged room step
    · obtain ⟨_, rfl⟩ := step
      exact logged.apply env op room
    · obtain ⟨walks, loaded, kept⟩ := step
      rw [kept]
      exact (logged.reload walks loaded).1

/-- The event log is well formed in every state, and still is after a further restart, where
every new event gets a cursor above all that were ever given out. -/
theorem events_in_order {inner : Inner} {issued : List TurnLifecycleEvent}
    (reached : (eventStore env).Reachable (RestartOp.Unsaturated env) (inner, issued)) :
    inner.EventsInOrder issued ∧
      ∀ limits order reloaded, order.Walks inner → inner.reload limits order = .ok reloaded →
        reloaded.EventsInOrder issued ∧
          ∀ op event, StoreOp.Unsaturated env reloaded op → event ∈ op.emitted env reloaded →
            inner.cursor < event.cursor.value ∧
              ∀ earlier ∈ issued, earlier.cursor.value < event.cursor.value := by
  have logged := eventStore.logged reached
  refine ⟨logged.eventsInOrder, fun limits order reloaded walks ok => ?_⟩
  obtain ⟨again, cursor⟩ := logged.reload walks ok
  refine ⟨again.eventsInOrder, fun op event room new => ?_⟩
  have above : inner.cursor < event.cursor.value := by
    have next := Inner.cursor_lt_emitted env reloaded op room new
    rwa [cursor] at next
  refine ⟨above, fun earlier written => ?_⟩
  rcases logged.covers.kept earlier written with present | gone
  · exact Nat.lt_of_le_of_lt (logged.covers.bounded earlier present) above
  · exact Nat.lt_of_le_of_lt (Nat.le_trans gone logged.covers.floor_le) above

/-! ## A log with room for one event -/

def oneEvent : InMemoryTurnStateStoreLimits :=
  { InMemoryTurnStateStoreLimits.default with maxEvents := 1 }

def claimFirst : StoreOp := .claimNextRun 0 ⟨⟨7⟩, ⟨8⟩, none⟩

open turnStore (firstRunOrder firstSubmission sampleEnv)

def submittedOnce : Inner := firstSubmission.apply sampleEnv
  (.withLimits oneEvent)

/-- A run is submitted and claimed; its first event is gone. -/
def claimedOnce : Inner := claimFirst.apply sampleEnv submittedOnce

def writtenEvents : List TurnLifecycleEvent :=
  firstSubmission.emitted sampleEnv (.withLimits oneEvent) ++
    claimFirst.emitted sampleEnv submittedOnce

theorem claimedOnce_reachable : (eventStore sampleEnv).Reachable (RestartOp.Unsaturated sampleEnv)
      (claimedOnce, writtenEvents) := by
  have started : (eventStore sampleEnv).Reachable
      (RestartOp.Unsaturated sampleEnv) (.withLimits oneEvent, []) :=
    .start ⟨oneEvent, rfl⟩
  have submits : (eventStore sampleEnv).step (.withLimits oneEvent, [])
      (.call firstSubmission) (submittedOnce, firstSubmission.emitted
        sampleEnv (.withLimits oneEvent)) := ⟨trivial, rfl⟩
  have claims : (eventStore sampleEnv).step (submittedOnce,
      firstSubmission.emitted sampleEnv (.withLimits oneEvent))
      (.call claimFirst) (claimedOnce, writtenEvents) := ⟨trivial, rfl⟩
  refine .next (.next started ?_ submits) ?_ claims
  · have room : firstSubmission.Unsaturated sampleEnv
        (.withLimits oneEvent) := by
      unfold StoreOp.Unsaturated
      decide
    exact room
  · have room : claimFirst.Unsaturated sampleEnv submittedOnce := by
      unfold StoreOp.Unsaturated
      decide
    exact room

/-- The dropped event is at the floor, before and after a restart. -/
theorem dropped_event_is_at_floor :
    (writtenEvents.map eventStamp = [1, 2] ∧ claimedOnce.events.map eventStamp = [2] ∧
      claimedOnce.eventRetentionFloor.value = 1 ∧ claimedOnce.EventsInOrder writtenEvents) ∧
    ∃ reloaded, claimedOnce.reload .default firstRunOrder = .ok reloaded ∧
      reloaded.EventsInOrder writtenEvents := by
  have facts := events_in_order claimedOnce_reachable
  refine ⟨⟨by decide, by decide, by decide, facts.1⟩, ?_⟩
  cases loaded : claimedOnce.reload .default firstRunOrder with
  | error =>
    have ok : (claimedOnce.reload .default firstRunOrder).isOk = true := by decide
    rw [loaded] at ok
    cases ok
  | ok reloaded =>
    exact ⟨reloaded, rfl, (facts.2 _ _ reloaded (by decide) loaded).1⟩

end eventStore

end Ironclaw.Turns
