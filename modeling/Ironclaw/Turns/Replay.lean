import Ironclaw.Turns.Memory
import Ironclaw.Turns.Capacity

/-!
# Replaying requests after a restart

A restart rebuilds the replay tables from the persisted rows, so a remembered outcome
survives it when its row is there.  The rows of all operations share one bound, and
busy retries take rows without being remembered: only a call that finds no room can
push out the row of an outcome that is still remembered.
-/

namespace Ironclaw.Turns

open Lib Turns.Inner Table
open TurnIdempotencyRecord (replayCancel replayResume replayRetry replaySubmit)
open List
open PersistedIdempotencyKey (runId scope)

/-! ## Steps -/

theorem Inner.Recalls.faithful {inner after : Inner} {key? : Option RecallKey}
    (recalls : inner.Recalls after.memory key?) (limits : after.limits = inner.limits)
    (kept : inner.KeepsRows)
    (room : ∀ key, key? = some key → inner.RoomToRemember key) : after.KeepsRows := by
  -- Memory and limits of the state after are those of the store that remembered.
  have settle : ∀ middle : Inner, middle.limits = inner.limits → after.memory = middle.memory →
      middle.KeepsRows → after.KeepsRows := by
    rintro middle sameLimits same ⟨kept, bounded⟩
    refine ⟨same ▸ kept, ?_⟩
    unfold RowsFit at bounded ⊢
    rw [limits, ← sameLimits, show after.idempotencyRecords = middle.idempotencyRecords from
        congrArg ReplayMemory.idempotencyRecords same]
    exact bounded
  cases recalls with
  | kept same => exact settle inner rfl same kept
  | trimmed same =>
    exact settle inner.pruneIdempotencyRecords rfl same
      kept.pruneIdempotencyRecords
  | submit result createdAt absent decided same =>
    exact settle (inner.rememberSubmitIdempotency _ result createdAt) rfl same
      (kept.rememberSubmit createdAt absent decided (room _ rfl))
  | resume result createdAt absent plain same =>
    exact settle (inner.rememberResumeIdempotency _ result createdAt) rfl same
      (kept.rememberResume createdAt absent plain (room _ rfl))
  | retry result createdAt absent plain same =>
    exact settle _ (rememberRetryIdempotency_rests _ _ _ _).limits same
      (kept.rememberRetry createdAt absent plain (room _ rfl))
  | retryBusy busy createdAt absent locked same =>
    exact settle _ (rememberRetryIdempotency_rests _ _ _ _).limits same
      (kept.rememberRetry_busy createdAt absent locked (room _ rfl))
  | cancel result createdAt absent plain same =>
    exact settle (inner.rememberCancelIdempotency _ result createdAt) rfl same
      (kept.rememberCancel createdAt absent plain (room _ rfl))

/-! ## Loading -/

namespace ReplayMemory

section

variable {κ ν : Type} [DecidableEq κ]

/-- A replay table and its order after a row that may add an entry. -/
def withEntry (table : Table κ ν) (order : List κ) : Option (κ × ν) → Table κ ν × List κ
  | none => (table, order)
  | some added => (table.insert added.1 added.2, order ++ [added.1])

/-- Loading rows one by one collects what each adds to a replay table. -/
theorem foldl_add (table : ReplayMemory → Table κ ν) (order : ReplayMemory → List κ)
    (entry : TurnIdempotencyRecord → Option (κ × ν))
    (step : ∀ memory row, (table (memory.add row), order (memory.add row)) =
      withEntry (table memory) (order memory) (entry row))
    (rows : List TurnIdempotencyRecord) (memory : ReplayMemory) :
    table (rows.foldl add memory) =
        collectWith Prod.fst Prod.snd (rows.filterMap entry) (table memory) ∧
      order (rows.foldl add memory) = order memory ++ (rows.filterMap entry).map Prod.fst := by
  induction rows generalizing memory with
  | nil => exact ⟨rfl, (append_nil _).symm⟩
  | cons row _ ih =>
    obtain ⟨tableAfter, orderAfter⟩ := ih (memory.add row)
    have added := step memory row
    rw [foldl_cons, tableAfter, orderAfter, filterMap_cons]
    cases found : entry row with
    | none =>
      rw [found, withEntry, Prod.mk.injEq] at added
      exact ⟨by rw [added.1], by rw [added.2]⟩
    | some =>
      rw [found, withEntry, Prod.mk.injEq] at added
      rw [added.1, added.2, map_cons, append_assoc]
      exact ⟨rfl, rfl⟩

variable {persisted : κ → PersistedIdempotencyKey}
  {replay : TurnIdempotencyRecord → Option (Except TurnError ν)}
  {entry : TurnIdempotencyRecord → Option (κ × Except TurnError ν)}
  {rows : PersistedRows} {order : List PersistedIdempotencyKey}
  {written : List TurnIdempotencyRecord}

theorem get_loaded_iff (iterated : rows.IteratedBy order)
    (keyed : ∀ {key row}, rows.get key = some row → persistedKeyForRecord row = key)
    (perm : written.Perm (rows.valuesIn order))
    (entry_iff : ∀ row key replayed, entry row = some (key, replayed) ↔
      persistedKeyForRecord row = persisted key ∧ replay row = some replayed) :
    ((written.filterMap entry).map Prod.fst).Nodup ∧ ∀ key replayed,
      (collectWith Prod.fst Prod.snd (written.filterMap entry) .empty).get key =
          some replayed ↔
        ∃ row, rows.get (persisted key) = some row ∧ replay row = some replayed := by
  have distinctRows : (written.map persistedKeyForRecord).Nodup :=
    ((perm.map persistedKeyForRecord).nodup_iff).mpr
      (map_key_valuesIn_nodup keyed iterated.nodup)
  have distinct : ((written.filterMap entry).map Prod.fst).Nodup := by
    refine pairwise_map.mpr ((pairwise_map.mp distinctRows).filterMap _ ?_)
    intro row other different pair found otherPair foundOther same
    refine different ?_
    rw [((entry_iff _ _ _).mp found).1, ((entry_iff _ _ _).mp foundOther).1, same]
  refine ⟨distinct, fun key replayed => ?_⟩
  rw [get_collectWith_iff distinct]
  constructor
  · rintro ⟨⟨_, _⟩, member, rfl, rfl⟩
    obtain ⟨row, listed, found⟩ := mem_filterMap.mp member
    obtain ⟨own, replays⟩ := (entry_iff _ _ _).mp found
    obtain ⟨_, stored⟩ := (mem_valuesIn iterated).mp (perm.mem_iff.mp listed)
    rw [keyed stored] at own
    exact ⟨row, own ▸ stored, replays⟩
  · rintro ⟨row, stored, replays⟩
    have listed := perm.mem_iff.mpr ((mem_valuesIn iterated).mpr ⟨_, stored⟩)
    exact ⟨(key, replayed),
      mem_filterMap.mpr ⟨row, listed, (entry_iff _ _ _).mpr ⟨keyed stored, replays⟩⟩, rfl, rfl⟩

end

/-! ### The four tables -/

def submitEntry (row : TurnIdempotencyRecord) :
    Option (SubmitIdempotencyKey × Except TurnError SubmitTurnResponse) :=
  row.replaySubmit.map fun replay => (⟨row.scope, row.key⟩, replay)

def runEntry {ν : Type} (replay : TurnIdempotencyRecord → Option (Except TurnError ν))
    (row : TurnIdempotencyRecord) : Option (RunIdempotencyKey × Except TurnError ν) := do
  let runId ← row.runId
  let outcome ← replay row
  some (⟨row.scope, runId, row.key⟩, outcome)

variable {κ ν : Type} {row : TurnIdempotencyRecord} {persisted : κ → PersistedIdempotencyKey}
    {rows : PersistedRows} {replay : TurnIdempotencyRecord → Option (Except TurnError ν)}

theorem runEntry_none (silent : replay row = none) : runEntry replay row = none := by
  rw [runEntry, silent]
  cases row.runId <;> rfl

theorem operation_of_replay {operation wanted : TurnIdempotencyOperationKind} {replay : Option ν}
    {replayed : ν} (replays : (if operation ≠ wanted then none else replay) = some replayed) :
    operation = wanted := by
  split at replays
  · cases replays
  next own => exact not_not.mp own

theorem submitEntry_iff (row : TurnIdempotencyRecord) (key : SubmitIdempotencyKey)
    (replayed : Except TurnError SubmitTurnResponse) : submitEntry row = some (key, replayed) ↔
      persistedKeyForRecord row = persistedSubmitKey key ∧ row.replaySubmit = some replayed := by
  unfold submitEntry
  rw [Option.map_eq_some_iff]
  constructor
  · rintro ⟨_, replays, equal⟩
    cases equal
    refine ⟨?_, replays⟩
    unfold persistedKeyForRecord persistedSubmitKey
    rw [operation_of_replay replays]
  · rintro ⟨own, replays⟩
    refine ⟨replayed, replays, ?_⟩
    have scope : row.scope = key.scope := congrArg scope own
    have sameKey : row.key = key.key := congrArg PersistedIdempotencyKey.key own
    rw [scope, sameKey]

theorem runEntry_iff {operation : TurnIdempotencyOperationKind} (other : operation ≠ .submit)
    (ofOperation : ∀ {row replayed}, replay row = some replayed → row.operation = operation)
    (row : TurnIdempotencyRecord) (key : RunIdempotencyKey) (replayed : Except TurnError ν) :
    runEntry replay row = some (key, replayed) ↔
      persistedKeyForRecord row = persistedRunKey operation key ∧ replay row = some replayed := by
  have keyOf : row.operation = operation →
      persistedKeyForRecord row = ⟨row.scope, operation, row.runId, row.key⟩ := by
    intro own
    unfold persistedKeyForRecord
    rw [own]
    cases operation with
    | submit => exact absurd rfl other
    | _ => rfl
  unfold runEntry
  simp only [bind, Option.bind_eq_some_iff]
  constructor
  · rintro ⟨_, named, _, replays, equal⟩
    cases equal
    refine ⟨?_, replays⟩
    rw [keyOf (ofOperation replays), named]
    rfl
  · rintro ⟨own, replays⟩
    rw [keyOf (ofOperation replays)] at own
    have scope : row.scope = key.scope := congrArg scope own
    have named : row.runId = some key.runId := congrArg runId own
    have sameKey : row.key = key.key := congrArg PersistedIdempotencyKey.key own
    exact ⟨key.runId, named, replayed, replays, by rw [scope, sameKey]⟩

/-- What one row adds to the four tables; the row of one operation leaves the tables of the
others alone. -/
theorem add_eq (memory : ReplayMemory) (row : TurnIdempotencyRecord) : memory.add row =
      let submit := withEntry memory.submitIdempotency memory.submitIdempotencyOrder
        (submitEntry row)
      let resume := withEntry memory.resumeIdempotency memory.resumeIdempotencyOrder
        (runEntry replayResume row)
      let retry := withEntry memory.retryIdempotency memory.retryIdempotencyOrder
        (runEntry replayRetry row)
      let cancel := withEntry memory.cancelIdempotency memory.cancelIdempotencyOrder
        (runEntry replayCancel row)
      ⟨submit.1, resume.1, retry.1, cancel.1,
        memory.idempotencyRecords.insert (persistedKeyForRecord row) row,
        submit.2, resume.2, retry.2, cancel.2,
        memory.idempotencyRecordOrder ++ [persistedKeyForRecord row]⟩ := by
  have noSubmit : row.operation ≠ .submit → submitEntry row = none := fun other => by
    rw [submitEntry, show row.replaySubmit = none from if_pos other]
    rfl
  have noResume : row.operation ≠ .resume → runEntry replayResume row = none :=
    fun other => runEntry_none (if_pos other)
  have noRetry : row.operation ≠ .retry → runEntry replayRetry row = none :=
    fun other => runEntry_none (if_pos other)
  have noCancel : row.operation ≠ .cancel → runEntry replayCancel row = none :=
    fun other => runEntry_none (if_pos other)
  unfold add
  cases operation : row.operation <;>
    simp only [operation, ne_eq, reduceCtorEq, not_false_eq_true, not_true_eq_false,
      forall_const, false_imp_iff] at noSubmit noResume noRetry noCancel
  · rw [noResume, noRetry, noCancel]
    dsimp only [addSubmit, submitEntry]
    cases row.replaySubmit <;> rfl
  · rw [noSubmit, noRetry, noCancel]
    dsimp only [addResume, runEntry]
    cases row.runId <;> cases row.replayResume <;> rfl
  · rw [noSubmit, noResume, noCancel]
    dsimp only [addRetry, runEntry]
    cases row.runId <;> cases row.replayRetry <;> rfl
  · rw [noSubmit, noResume, noRetry]
    dsimp only [addCancel, runEntry]
    cases row.runId <;> cases row.replayCancel <;> rfl

theorem foldl_add_rows (rows : List TurnIdempotencyRecord) (memory : ReplayMemory) :
    (rows.foldl add memory).idempotencyRecords =
      collectInto persistedKeyForRecord rows memory.idempotencyRecords := by
  induction rows generalizing memory with
  | nil => rfl
  | cons _ _ ih =>
    rw [foldl_cons, ih, add_eq]
    rfl

/-- A replay table that holds what the rows of its operation replay to. -/
structure Loaded {κ ν : Type} [DecidableEq κ] (persisted : κ → PersistedIdempotencyKey)
    (replay : TurnIdempotencyRecord → Option (Except TurnError ν))
    (map : Table κ (Except TurnError ν)) (order : List κ) (rows : PersistedRows) : Prop where
  iterated : map.IteratedBy order
  get_iff : ∀ key replayed, map.get key = some replayed ↔
    ∃ row, rows.get (persisted key) = some row ∧ replay row = some replayed

theorem Loaded.backed [DecidableEq κ] {map : Table κ (Except TurnError ν)} {order : List κ}
    (loaded : Loaded persisted replay map order rows) : Backed persisted replay map order rows := by
  refine ⟨loaded.iterated, fun {key result} held => ?_⟩
  obtain ⟨row, stored, replays⟩ := (loaded.get_iff key result).mp held
  exact ⟨row, result, stored, replays, .refl result⟩

theorem Loaded.recover [DecidableEq κ] {map remembered : Table κ (Except TurnError ν)}
    {order before : List κ} (loaded : Loaded persisted replay map order rows)
    (backed : Backed persisted replay remembered before rows) {key : κ}
    {result : Except TurnError ν} (held : remembered.get key = some result) :
    ∃ replayed, map.get key = some replayed ∧ SameOutcome result replayed := by
  obtain ⟨row, replayed, stored, replays, same⟩ := backed.row held
  exact ⟨replayed, (loaded.get_iff key replayed).mpr ⟨row, stored, replays⟩, same⟩

structure Rebuilt (memory : ReplayMemory) (rows : PersistedRows) : Prop where
  records : memory.idempotencyRecords = rows
  submit : Loaded persistedSubmitKey replaySubmit
    memory.submitIdempotency memory.submitIdempotencyOrder rows
  resume : Loaded (persistedRunKey .resume) replayResume
    memory.resumeIdempotency memory.resumeIdempotencyOrder rows
  retry : Loaded (persistedRunKey .retry) replayRetry
    memory.retryIdempotency memory.retryIdempotencyOrder rows
  cancel : Loaded (persistedRunKey .cancel) replayCancel
    memory.cancelIdempotency memory.cancelIdempotencyOrder rows

section

variable {rows : PersistedRows} {order : List PersistedIdempotencyKey}
  {written : List TurnIdempotencyRecord} (iterated : rows.IteratedBy order)
  (keyed : ∀ {key row}, rows.get key = some row → persistedKeyForRecord row = key)
  (perm : written.Perm (rows.valuesIn order))

include iterated keyed perm

theorem loaded_of_step {κ ν : Type} [DecidableEq κ] {persisted : κ → PersistedIdempotencyKey}
    {replay : TurnIdempotencyRecord → Option (Except TurnError ν)}
    {entry : TurnIdempotencyRecord → Option (κ × Except TurnError ν)}
    {table : ReplayMemory → Table κ (Except TurnError ν)} {listing : ReplayMemory → List κ}
    (step : ∀ memory row, (table (memory.add row), listing (memory.add row)) =
      withEntry (table memory) (listing memory) (entry row))
    (entry_iff : ∀ row key replayed, entry row = some (key, replayed) ↔
      persistedKeyForRecord row = persisted key ∧ replay row = some replayed)
    (emptyTable : table empty = .empty) (emptyListing : listing empty = []) :
    Loaded persisted replay (table (written.foldl add empty)) (listing (written.foldl add empty))
      rows := by
  obtain ⟨collected, listed⟩ := foldl_add table listing entry step written empty
  obtain ⟨distinct, get_iff⟩ := get_loaded_iff iterated keyed perm entry_iff
  rw [collected, listed, emptyTable, emptyListing, nil_append]
  exact ⟨iteratedBy_collectWith _ _ distinct, get_iff⟩

theorem rebuilt_of_rows : Rebuilt (written.foldl add empty) rows where
  records := (foldl_add_rows written empty).trans (collect_of_perm iterated keyed perm)
  submit := loaded_of_step iterated keyed perm
    (fun memory row => by rw [add_eq]) submitEntry_iff rfl rfl
  resume := loaded_of_step iterated keyed perm
    (fun memory row => by rw [add_eq])
    (runEntry_iff (by decide) operation_of_replay) rfl rfl
  retry := loaded_of_step iterated keyed perm
    (fun memory row => by rw [add_eq])
    (runEntry_iff (by decide) operation_of_replay) rfl rfl
  cancel := loaded_of_step iterated keyed perm
    (fun memory row => by rw [add_eq])
    (runEntry_iff (by decide) operation_of_replay) rfl rfl

end

theorem Rebuilt.faithful {memory : ReplayMemory} (rebuilt : memory.Rebuilt rows)
    (keyed : ∀ {key row}, rows.get key = some row → persistedKeyForRecord row = key) :
    memory.Faithful := by
  obtain rfl := rebuilt.records
  exact ⟨keyed, rebuilt.submit.backed, rebuilt.resume.backed, rebuilt.retry.backed,
    rebuilt.cancel.backed⟩

theorem faithful_empty : empty.Faithful := by
  have keyed : ∀ {key row}, (Table.empty : PersistedRows).get key = some row →
      persistedKeyForRecord row = key := fun stored => by
    rw [get_empty] at stored
    cases stored
  exact (rebuilt_of_rows (Table.iteratedBy_iff_keys.mpr ⟨nodup_nil, rfl⟩) keyed
    (.refl [])).faithful keyed

end ReplayMemory

theorem Inner.Reloaded.rebuilt {inner reloaded : Inner} {limits : InMemoryTurnStateStoreLimits}
    {order : IterationOrder} (loaded : inner.Reloaded reloaded limits order)
    (walks : order.Walks inner) (faithful : inner.memory.Faithful) :
    reloaded.memory.Rebuilt inner.idempotencyRecords := by
  rw [loaded.memory]
  exact ReplayMemory.rebuilt_of_rows walks.idempotencyRecords faithful.keyed
    ((sortByKey_perm _ _).trans (sortByKey_perm _ _))

/-! ## Whole runs -/

/-- Every call that may remember its outcome finds room for its row, and a restart is
given limits that hold the rows. -/
def RestartOp.RoomToRemember (inner : Inner) : RestartOp → Prop
  | .call op => ∀ key, op.recallKey = some key → inner.RoomToRemember key
  | .restart limits _ => inner.idempotencyRecords.keys.card ≤ limits.maxIdempotencyRecords * 4

/-- `reloaded` answers every request with a remembered outcome as it was answered, and is
not changed by it. -/
structure Inner.Answers (env : StoreEnv) (inner reloaded : Inner) : Prop where
  submit : ∀ context request result,
    inner.submitIdempotency.get ⟨request.scope, request.idempotencyKey⟩ = some result →
    ∃ replayed, reloaded.submitTurn env context request = (some replayed, reloaded) ∧
      SameOutcome result replayed
  submitChild : ∀ context request result,
    inner.submitIdempotency.get ⟨request.childScope, request.idempotencyKey⟩ = some result →
    ∃ replayed, reloaded.submitChildTurn context request = (some replayed, reloaded) ∧
      SameOutcome result replayed
  resume : ∀ now request result,
    inner.resumeIdempotency.get ⟨request.scope, request.runId, request.idempotencyKey⟩ =
      some result →
    ∃ replayed, reloaded.resumeTurn now request = (replayed, reloaded) ∧ SameOutcome result replayed
  retry : ∀ context request result,
    inner.retryIdempotency.get ⟨request.scope, request.runId, request.idempotencyKey⟩ =
      some result →
    ∃ replayed, reloaded.retryTurn context request = (replayed, reloaded) ∧
      SameOutcome result replayed
  cancel : ∀ now request result,
    inner.cancelIdempotency.get ⟨request.scope, request.runId, request.idempotencyKey⟩ =
      some result →
    ∃ replayed, reloaded.requestCancel now request = (replayed, reloaded) ∧
      SameOutcome result replayed

section

variable {reloaded : Inner}

theorem Inner.claimSubmitIdempotency_of_get {key : SubmitIdempotencyKey}
    {result : Except TurnError SubmitTurnResponse}
    (held : reloaded.submitIdempotency.get key = some result) :
    reloaded.claimSubmitIdempotency key = (.replay result, reloaded) := by
  unfold claimSubmitIdempotency
  rw [held]

theorem ReplayMemory.Rebuilt.answers (env : StoreEnv) {inner : Inner}
    (rebuilt : reloaded.memory.Rebuilt inner.idempotencyRecords)
    (faithful : inner.memory.Faithful) : inner.Answers env reloaded where
  submit context request result held := by
    obtain ⟨replayed, found, same⟩ := rebuilt.submit.recover faithful.submit held
    refine ⟨replayed, ?_, same⟩
    unfold submitTurn
    dsimp only
    rw [claimSubmitIdempotency_of_get found]
  submitChild context request result held := by
    obtain ⟨replayed, found, same⟩ := rebuilt.submit.recover faithful.submit held
    refine ⟨replayed, ?_, same⟩
    unfold submitChildTurn
    dsimp only
    rw [claimSubmitIdempotency_of_get found]
  resume now request result held := by
    obtain ⟨replayed, found, same⟩ := rebuilt.resume.recover faithful.resume held
    refine ⟨replayed, ?_, same⟩
    unfold resumeTurn
    dsimp only
    rw [show reloaded.resumeIdempotency.get _ = _ from found]
  retry context request result held := by
    obtain ⟨replayed, found, same⟩ := rebuilt.retry.recover faithful.retry held
    refine ⟨replayed, ?_, same⟩
    unfold retryTurn
    dsimp only
    rw [show reloaded.retryIdempotency.get _ = _ from found]
  cancel now request result held := by
    obtain ⟨replayed, found, same⟩ := rebuilt.cancel.recover faithful.cancel held
    refine ⟨replayed, ?_, same⟩
    unfold requestCancel
    dsimp only
    rw [show reloaded.cancelIdempotency.get _ = _ from found]

end

namespace restartingStore

variable {env : StoreEnv}

theorem faithful {inner : Inner}
    (reached : (restartingStore env).Reachable RestartOp.RoomToRemember inner) :
    inner.KeepsRows := by
  induction reached with
  | start initial =>
    obtain ⟨limits, rfl⟩ := initial
    exact ⟨ReplayMemory.faithful_empty, Nat.zero_le _⟩
  | @next before after label earlier room step kept =>
    cases label with
    | call op =>
      obtain ⟨_, _, rfl⟩ := step
      have limits := (op.apply_lasts env before).limits
      exact (op.apply_recalls env before).faithful limits kept room
    | restart limits =>
      obtain ⟨walks, loaded⟩ := step
      obtain ⟨_, ok, facts⟩ := reload_of_sound (sound earlier) walks limits
      rw [ok] at loaded
      cases loaded
      have rebuilt := facts.rebuilt walks kept.faithful
      refine ⟨rebuilt.faithful kept.faithful.keyed, ?_⟩
      unfold Inner.RowsFit
      rw [facts.configured, show after.idempotencyRecords = _ from rebuilt.records]
      exact room

/-- After runs with room a restarted store replays every remembered outcome. -/
theorem restart_replays_remembered_requests (env : StoreEnv) {inner : Inner}
    (reached : (restartingStore env).Reachable RestartOp.RoomToRemember inner)
    (limits : InMemoryTurnStateStoreLimits) {order : IterationOrder} (walks : order.Walks inner) :
    ∃ reloaded, inner.reload limits order = .ok reloaded ∧ inner.Answers env reloaded := by
  obtain ⟨kept, _⟩ := faithful reached
  obtain ⟨reloaded, loaded, facts⟩ := reload_of_sound (sound reached) walks limits
  exact ⟨reloaded, loaded, (facts.rebuilt walks kept).answers env kept⟩

open turnStore (firstSubmission sampleContext sampleEnv sampleRequest sampleScope)

/-- A submission that found room is answered again after a restart. -/
theorem capped_submission_replayed :
    ∃ reloaded response, cappedStore.reload .default turnStore.firstRunOrder = .ok reloaded ∧
      cappedStore.submitIdempotency.get ⟨turnStore.sampleScope .actorFallback, ⟨"first"⟩⟩ =
        some (.ok response) ∧
      reloaded.submitTurn turnStore.sampleEnv cappedContext
        (turnStore.sampleRequest (turnStore.sampleScope .actorFallback) "first") =
          (some (.ok response), reloaded) := by
  have reached : (restartingStore sampleEnv).Reachable RestartOp.RoomToRemember
      cappedStore := by
    refine cappedStore_reachable fun key given => ?_
    cases given
    exact .inr (.inl (by decide))
  have walks : turnStore.firstRunOrder.Walks cappedStore := by decide
  obtain ⟨reloaded, loaded, answers⟩ := restart_replays_remembered_requests sampleEnv
    reached .default walks
  obtain ⟨replayed, replays, same⟩ := answers.submit cappedContext
    (sampleRequest (sampleScope .actorFallback) "first") _ rfl
  refine ⟨reloaded, _, loaded, rfl, ?_⟩
  rw [replays]
  rcases replayed with _ | response
  · cases same
  · rw [show response = _ from same]

/-! ## A displaced row -/

/-- One remembered outcome for each operation, and four rows. -/
def oneIdempotencyRecord : InMemoryTurnStateStoreLimits :=
  { InMemoryTurnStateStoreLimits.default with maxIdempotencyRecords := 1 }

def displacedRequest : SubmitTurnRequest := sampleRequest (sampleScope .actorFallback) "second"

def displacedContext : CallContext := { sampleContext with freshTurnId := ⟨2⟩, freshRunId := ⟨2⟩ }

/-- A retry of the failed first run, whose thread the second run holds. -/
def busyRetry (idempotencyKey : String) : StoreOp :=
  .retryTurn { sampleContext with freshRunId := ⟨3⟩ }
    ⟨sampleScope .actorFallback, ⟨⟨"user"⟩⟩, ⟨1⟩, ⟨"source"⟩, ⟨"reply"⟩, ⟨idempotencyKey⟩⟩

/-- The first run fails at a checkpoint, the second is submitted, and the first is
retried four times. -/
def displacingSteps : List StoreOp :=
  [firstSubmission,
    .putLoopCheckpoint 0 ⟨1⟩ ⟨sampleScope .actorFallback, ⟨1⟩, ⟨1⟩, ⟨"state"⟩, "schema",
      ⟨1⟩, .beforeModel, none⟩, .claimNextRun 0 ⟨⟨7⟩, ⟨8⟩, none⟩,
    .failRun 0 ⟨⟨1⟩, ⟨7⟩, ⟨8⟩⟩ ⟨"failed", none⟩,
    .submitCommit displacedContext ⟨sampleScope .actorFallback, ⟨"second"⟩⟩ displacedRequest,
    busyRetry "a", busyRetry "b", busyRetry "c", busyRetry "d"]

def displacedStore : Inner :=
  displacingSteps.foldl (fun inner op => op.apply sampleEnv inner)
    (.withLimits oneIdempotencyRecord)

theorem displacedStore_reachable :
    (restartingStore sampleEnv).Reachable System.anyStep displacedStore := by
  refine reachable_calls displacingSteps (.start ⟨oneIdempotencyRecord, rfl⟩) ?_
  iterate 5
    refine ⟨⟨trivial, by decide, trivial⟩, ?_⟩
  iterate 4
    refine ⟨⟨rfl, by decide, trivial⟩, ?_⟩
  trivial

def displacedOrder : IterationOrder where
  turns := [⟨1⟩, ⟨2⟩]
  records := [⟨1⟩, ⟨2⟩]
  activeLocks := [⟨sampleScope .actorFallback⟩]
  loopCheckpoints := [⟨1⟩]
  idempotencyRecords := ["a", "b", "c", "d"].map fun key =>
    persistedRunKey .retry ⟨sampleScope .actorFallback, ⟨1⟩, ⟨key⟩⟩
  admissionReservations := [⟨1⟩, ⟨2⟩]
  treeReservations := []
  loadedRecords := [⟨1⟩, ⟨2⟩]

theorem displacedOrder_walks : displacedOrder.Walks displacedStore := by decide

/-- The accepted submission is remembered, but the restarted store finds its thread busy
with its own run. -/
theorem busy_retries_displace_remembered_submission :
    (restartingStore turnStore.sampleEnv).Reachable System.anyStep displacedStore ∧
      displacedOrder.Walks displacedStore ∧
      ∃ reloaded, displacedStore.reload oneIdempotencyRecord displacedOrder = .ok reloaded ∧
        (∃ response, displacedStore.submitIdempotency.get
          ⟨displacedRequest.scope, displacedRequest.idempotencyKey⟩ = some (.ok response)) ∧
        (∃ busy, (reloaded.submitTurn turnStore.sampleEnv displacedContext displacedRequest).1 =
          some (.error (.threadBusy busy))) ∧
        ¬ displacedStore.Answers turnStore.sampleEnv reloaded := by
  obtain ⟨reloaded, loaded, _⟩ := reload_of_sound (sound displacedStore_reachable)
    displacedOrder_walks oneIdempotencyRecord
  have remembered : ∃ response, displacedStore.submitIdempotency.get
      ⟨displacedRequest.scope, displacedRequest.idempotencyKey⟩ = some (.ok response) :=
    ⟨_, rfl⟩
  have refused : ∃ busy, (reloaded.submitTurn sampleEnv displacedContext
      displacedRequest).1 = some (.error (.threadBusy busy)) := by
    cases loaded
    exact ⟨_, rfl⟩
  refine ⟨displacedStore_reachable, displacedOrder_walks, reloaded, loaded, remembered, refused,
    fun answers => ?_⟩
  obtain ⟨_, held⟩ := remembered
  obtain ⟨_, answered⟩ := refused
  obtain ⟨_, replays, same⟩ := answers.submit displacedContext displacedRequest _ held
  rw [replays] at answered
  cases answered
  exact same

end restartingStore

end Ironclaw.Turns
