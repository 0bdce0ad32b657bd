import Ironclaw.Turns.Locks

/-!
# Concurrent writes to the sink

A call captures a snapshot with a sequence number under the lock of the store, and hands it to
the sink under a second lock, unless a later number was handed over before.  Calls overtake
each other between the two locks, and the store changes all the time.
-/

namespace Ironclaw.Turns

open Lib Function System

inductive PersistCall where
  | ready
  | captured (seq : Nat) (snapshot : TurnPersistenceSnapshot)
  | writing (seq : Nat) (snapshot : TurnPersistenceSnapshot)
  | returned (seq : Nat)

structure PersistRace (ι : Type) where
  inner : Inner
  gatePersistedRuns : Finset TurnRunId
  persistSeq : Nat
  lastPersistedSeq : Nat
  /-- The call that holds `persist_lock`. -/
  persistLock : Option ι
  calls : ι → PersistCall
  /-- What the sink was given, the latest first. -/
  received : List (Nat × TurnPersistenceSnapshot)

inductive PersistLabel (ι : Type) where
  /-- A call on the store, with the runs it marks as persisted at a gate. -/
  | mutate (op : StoreOp) (marked : Finset TurnRunId)
  | capture (call : ι) (order : IterationOrder)
  | enter (call : ι)
  | deliver (call : ι)

namespace PersistRace

variable {ι : Type} [DecidableEq ι] (cleans : ι → Option TurnRunId)

/-- The call returns; one of `persist_terminal_cleanup` stops tracking its run. -/
def finish (race : PersistRace ι) (call : ι) (seq : Nat) : PersistRace ι :=
  { race with
    calls := update race.calls call (.returned seq)
    gatePersistedRuns := match cleans call with
      | some runId => race.gatePersistedRuns.erase runId
      | none => race.gatePersistedRuns }

def apply (env : StoreEnv) (race : PersistRace ι) : PersistLabel ι → PersistRace ι
  | .mutate op marked =>
    { race with
      inner := op.apply env race.inner
      gatePersistedRuns := race.gatePersistedRuns ∪ marked }
  | .capture call order =>
    match race.calls call with
    | .ready =>
      { race with
        persistSeq := nextPersistSeq race.persistSeq
        calls := update race.calls call
          (.captured race.persistSeq (race.inner.persistenceSnapshot order)) }
    | _ => race
  | .enter call =>
    match race.calls call, race.persistLock with
    | .captured seq snapshot, none =>
      if seq < race.lastPersistedSeq then race.finish cleans call seq
      else
        { race with
          lastPersistedSeq := seq
          persistLock := some call
          calls := update race.calls call (.writing seq snapshot) }
    | _, _ => race
  | .deliver call =>
    match race.calls call with
    | .writing seq snapshot =>
      { race.finish cleans call seq with
        persistLock := none
        received := (seq, snapshot) :: race.received }
    | _ => race

def start (inner : Inner) (gatePersistedRuns : Finset TurnRunId) : PersistRace ι where
  inner
  gatePersistedRuns
  persistSeq := 0
  lastPersistedSeq := 0
  persistLock := none
  calls _ := .ready
  received := []

def runs (env : StoreEnv) : System (PersistRace ι) (PersistLabel ι) :=
  .ofFunction (fun race => ∃ inner tracked, race = start inner tracked) (apply cleans env)

/-- What the sink has is in order and reaches up to the last number that was let through. -/
structure Ordered (race : PersistRace ι) : Prop where
  sorted : race.received.Pairwise fun later earlier => earlier.1 ≤ later.1
  below : ∀ entry ∈ race.received, entry.1 ≤ race.lastPersistedSeq
  taken : ∀ entry ∈ race.received, ∃ call, race.calls call = .returned entry.1
  returned : ∀ call seq, race.calls call = .returned seq → seq ≤ race.lastPersistedSeq
  writer : ∀ call seq snapshot, race.calls call = .writing seq snapshot →
    race.persistLock = some call
  holder : ∀ call, race.persistLock = some call →
    ∃ snapshot, race.calls call = .writing race.lastPersistedSeq snapshot
  latest : race.persistLock = none →
    (race.lastPersistedSeq = 0 ∧ ∀ call seq, race.calls call ≠ .returned seq) ∨
      ∃ snapshot rest, race.received = (race.lastPersistedSeq, snapshot) :: rest

variable {cleans} {env : StoreEnv} {race : PersistRace ι}

omit [DecidableEq ι] in
theorem Ordered.start (inner : Inner) (tracked : Finset TurnRunId) :
    (PersistRace.start inner tracked : PersistRace ι).Ordered where
  sorted := .nil
  below := by simp [PersistRace.start]
  taken := by simp [PersistRace.start]
  returned := by simp [PersistRace.start]
  writer := by simp [PersistRace.start]
  holder := by simp [PersistRace.start]
  latest _ := .inl ⟨rfl, by simp [PersistRace.start]⟩

section

variable {call : ι} {seq : Nat} {snapshot : TurnPersistenceSnapshot} (ordered : race.Ordered)

include ordered

theorem Ordered.taken_update (phase : PersistCall)
    (pending : ∀ seq, race.calls call ≠ .returned seq) : ∀ entry ∈ race.received, ∃ other,
      update race.calls call phase other = .returned entry.1 := by
  intro entry listed
  obtain ⟨other, returned⟩ := ordered.taken entry listed
  refine ⟨other, ?_⟩
  rw [update_of_ne, returned]
  rintro rfl
  exact pending _ returned

theorem Ordered.capture (ready : race.calls call = .ready) (next : Nat) : Ordered { race with
      persistSeq := next
      calls := update race.calls call (.captured seq snapshot) } where
  __ := ordered
  taken := ordered.taken_update _ (by simp [ready])
  returned := by
    have returned := ordered.returned
    simp only [update_apply]
    grind
  writer := by
    have writer := ordered.writer
    simp only [update_apply]
    grind
  holder := by
    have holder := ordered.holder
    simp only [update_apply]
    grind
  latest := by
    have latest := ordered.latest
    simp only [update_apply]
    grind

/-- A later number was let through, so the sink already has it. -/
theorem Ordered.skip (captured : race.calls call = .captured seq snapshot)
    (free : race.persistLock = none) (stale : seq < race.lastPersistedSeq) :
    (race.finish cleans call seq).Ordered where
  __ := ordered
  taken := ordered.taken_update _ (by simp [captured])
  returned := by
    have returned := ordered.returned
    simp only [finish, update_apply]
    grind
  writer := by
    have writer := ordered.writer
    simp only [finish, update_apply]
    grind
  holder := by simp [finish, free]
  latest _ := by
    rcases ordered.latest free with ⟨none, _⟩ | written
    · rw [none] at stale
      exact absurd stale (Nat.not_lt_zero seq)
    · exact .inr written

theorem Ordered.enter (captured : race.calls call = .captured seq snapshot)
    (free : race.persistLock = none) (current : race.lastPersistedSeq ≤ seq) : Ordered { race with
      lastPersistedSeq := seq
      persistLock := some call
      calls := update race.calls call (.writing seq snapshot) } where
  sorted := ordered.sorted
  below entry listed := (ordered.below entry listed).trans current
  taken := ordered.taken_update _ (by simp [captured])
  returned := by
    have returned := ordered.returned
    simp only [update_apply]
    grind
  writer := by
    have writer := ordered.writer
    simp only [update_apply]
    grind
  holder other held := by
    cases held
    exact ⟨snapshot, update_self ..⟩
  latest held := by cases held

theorem Ordered.deliver (writing : race.calls call = .writing seq snapshot) :
    Ordered { race.finish cleans call seq with
      persistLock := none
      received := (seq, snapshot) :: race.received } := by
  obtain ⟨_, own⟩ := ordered.holder call (ordered.writer call seq snapshot writing)
  rw [writing] at own
  obtain rfl : _ = race.lastPersistedSeq := (PersistCall.writing.inj own).1
  refine ⟨.cons ordered.below ordered.sorted, ?_, ?_, ?_, ?_, ?_, fun _ => .inr ⟨_, _, rfl⟩⟩
  · exact List.forall_mem_cons.mpr ⟨le_rfl, ordered.below⟩
  · refine List.forall_mem_cons.mpr ⟨⟨call, update_self ..⟩, ?_⟩
    exact ordered.taken_update _ (by simp [writing])
  · have returned := ordered.returned
    simp only [finish, update_apply]
    grind
  · have writer := ordered.writer
    simp only [finish, update_apply]
    grind
  · intro _ held
    cases held

theorem Ordered.step (label : PersistLabel ι) : (race.apply cleans env label).Ordered := by
  cases label with
  | mutate => exact { ordered with }
  | capture call =>
    dsimp only [PersistRace.apply]
    cases phase : race.calls call with
    | ready => exact ordered.capture phase _
    | _ => exact ordered
  | enter call =>
    dsimp only [PersistRace.apply]
    split
    next captured free =>
      split_ifs with stale
      · exact ordered.skip captured free stale
      · exact ordered.enter captured free (Nat.le_of_not_lt stale)
    · exact ordered
  | deliver call =>
    dsimp only [PersistRace.apply]
    cases phase : race.calls call with
    | writing => exact ordered.deliver phase
    | _ => exact ordered

end

theorem ordered (reached : (runs cleans env).Reachable anyStep race) : race.Ordered := by
  refine reached.invariant Ordered ?_ ?_
  · rintro _ ⟨inner, tracked, rfl⟩
    exact .start inner tracked
  · rintro _ label _ ordered _ rfl
    exact ordered.step label

/-- The numbers the sink receives never go down, and once all calls that have started are
back the sink has the highest number any of them took. -/
theorem sink_never_goes_back (reached : (runs cleans env).Reachable anyStep race) :
    (race.received.Pairwise fun later earlier => earlier.1 ≤ later.1) ∧
      ((∀ call, race.calls call = .ready ∨ ∃ seq, race.calls call = .returned seq) →
        ∀ call seq, race.calls call = .returned seq →
          ∃ last snapshot rest, race.received = (last, snapshot) :: rest ∧ seq ≤ last ∧
            ∃ other, race.calls other = .returned last) := by
  have ordered := ordered reached
  refine ⟨ordered.sorted, fun ended call seq returned => ?_⟩
  have free : race.persistLock = none := by
    cases held : race.persistLock with
    | none => rfl
    | some holder =>
      obtain ⟨snapshot, writing⟩ := ordered.holder holder held
      rcases ended holder with ready | ⟨seq, back⟩
      · rw [ready] at writing
        cases writing
      · rw [back] at writing
        cases writing
  rcases ordered.latest free with ⟨_, none⟩ | ⟨snapshot, rest, received⟩
  · exact absurd returned (none call seq)
  · refine ⟨_, snapshot, rest, received, ordered.returned call seq returned, ?_⟩
    exact ordered.taken (race.lastPersistedSeq, snapshot) (by simp [received])

/-- Two calls in which the later number reaches the sink first. -/
def overtakingCalls (order : IterationOrder) : List (PersistLabel Bool) :=
  [.capture false order, .capture true order, .enter true, .deliver true, .enter false]

theorem overtaken_call_is_dropped : let order : IterationOrder := ⟨[], [], [], [], [], [], [], []⟩
    let first : PersistRace Bool := start (.withLimits .default) ∅
    let last := (overtakingCalls order).foldl (apply (fun _ => none) turnStore.sampleEnv) first
    last.calls false = .returned 0 ∧ last.calls true = .returned 1 ∧
      last.received.Pairwise (fun later earlier => earlier.1 ≤ later.1) ∧
      ∃ seq snapshot rest, last.received = (seq, snapshot) :: rest ∧ 1 ≤ seq ∧
        ∃ other, last.calls other = .returned seq := by
  intro order first last
  have started : (runs (fun _ => none) turnStore.sampleEnv).Reachable anyStep first :=
    .start ⟨_, _, rfl⟩
  have reached := started.follow (overtakingCalls order)
  have back : last.calls true = .returned 1 := rfl
  have others : ∀ call, last.calls call = .ready ∨ ∃ seq, last.calls call = .returned seq := by
    rintro (_ | _)
    · exact .inr ⟨0, rfl⟩
    · exact .inr ⟨1, rfl⟩
  obtain ⟨sorted, latest⟩ := sink_never_goes_back reached
  exact ⟨rfl, back, sorted, latest others true 1 back⟩

end PersistRace

end Ironclaw.Turns
