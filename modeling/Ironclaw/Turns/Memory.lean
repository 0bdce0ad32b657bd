import Ironclaw.Turns.Simulation

/-!
# What the replay memory backs

The store remembers an outcome twice: in the replay table of its operation and as a
row of the table it persists.  The tables are bounded separately.  An outcome is
backed when its row is there and replays to it; this module says when remembering
keeps every outcome backed.
-/

namespace Ironclaw.Turns

open Lib Table TurnIdempotencyRecord TurnIdempotencyErrorReplay TurnError Finset

/-! ## Bounded tables -/

section

variable {κ ν : Type} [DecidableEq κ] {maxLen : Nat} {map : Table κ ν} (order : List κ)

theorem pruneOrderedMap_of_fits (fits : map.keys.card ≤ maxLen) :
    (pruneOrderedMap map order maxLen).1 = map := by
  have kept : dropOldest maxLen order map [] = (map, order, []) := by
    cases order with
    | nil => rfl
    | cons => rw [dropOldest, if_neg (Nat.not_lt.mpr fits)]
  unfold pruneOrderedMap
  rw [kept]

/-- What pruning does to a table whose order lists its keys. -/
structure Pruned (maxLen : Nat) (map : Table κ ν) (kept : Table κ ν) (order removed : List κ) :
    Prop where
  iterated : kept.IteratedBy order
  get : ∀ key, kept.get key = if key ∈ removed then none else map.get key
  present : ∀ key ∈ removed, (map.get key).isSome = true
  full : maxLen < map.keys.card → removed ≠ []

theorem get_dropOldest (map : Table κ ν) (removed : List κ) (key : κ) :
    (dropOldest maxLen order map removed).1.get key = map.get key ∨
      (dropOldest maxLen order map removed).1.get key = none := by
  induction order generalizing map removed with
  | nil => exact .inl rfl
  | cons oldest _ ih =>
    unfold dropOldest
    split
    · rcases ih (map.remove oldest) _ with kept | dropped
      · rw [kept, get_remove]
        split
        · exact .inr rfl
        · exact .inl rfl
      · exact .inr dropped
    · exact .inl rfl

theorem dropOldest_pruned (map : Table κ ν) (already : List κ) (iterated : map.IteratedBy order) :
    ∃ dropped, (dropOldest maxLen order map already).2.2 = already ++ dropped ∧
      Pruned maxLen map (dropOldest maxLen order map already).1
        (dropOldest maxLen order map already).2.1 dropped := by
  induction order generalizing map already with
  | nil =>
    refine ⟨[], (List.append_nil already).symm, iterated, fun key => rfl, fun _ => nofun, ?_⟩
    intro overfull
    have empty : map.keys = ∅ := by
      ext key
      simp [mem_keys, ← iterated.mem_iff key]
    rw [empty] at overfull
    cases overfull
  | cons key _ ih =>
    rw [dropOldest]
    split
    · have present : (map.get key).isSome = true :=
        (iterated.mem_iff key).mp List.mem_cons_self
      rw [show map.containsKey key = true from present, if_pos rfl]
      obtain ⟨dropped, removed, pruned⟩ := ih (map.remove key) (already ++ [key]) iterated.tail
      refine ⟨key :: dropped, by rw [removed, List.append_assoc]; rfl, pruned.iterated, ?_, ?_,
        fun _ => List.cons_ne_nil key dropped⟩
      · intro other
        rw [pruned.get, get_remove]
        by_cases same : other = key
        · simp [same]
        · simp [same]
      · intro other listed
        rcases List.mem_cons.mp listed with same | later
        · rw [same]
          exact present
        · have kept := pruned.present other later
          rw [get_remove] at kept
          split at kept
          · cases kept
          · exact kept
    next fits =>
      exact ⟨[], (List.append_nil already).symm, iterated, fun key => rfl, fun _ => nofun,
        fun overfull => absurd overfull fits⟩

theorem rememberOrdered_pruned {order : List κ} (iterated : map.IteratedBy order) (key : κ)
    (result : ν) :
    Pruned maxLen (map.insert key result) (rememberOrdered map order key result maxLen).1
      (rememberOrdered map order key result maxLen).2.1
      (rememberOrdered map order key result maxLen).2.2 := by
  obtain ⟨dropped, removed, pruned⟩ :=
    @dropOldest_pruned κ ν _ maxLen _ _ [] (iterated.insert key result)
  unfold rememberOrdered pruneOrderedMap
  dsimp only
  generalize dropOldest maxLen
    (if map.containsKey key then order else order ++ [key]) (map.insert key result) [] = result
    at removed pruned
  obtain ⟨kept, left, lost⟩ := result
  rw [show lost = dropped from removed]
  refine ⟨?_, pruned.get, pruned.present, pruned.full⟩
  -- The oldest key left is still stored, so no stale key is trimmed.
  have trimmed : left.dropWhile (fun key => !kept.containsKey key) = left := by
    cases left with
    | nil => rfl
    | cons first =>
      have stored : kept.containsKey first = true :=
        (pruned.iterated.mem_iff first).mp List.mem_cons_self
      rw [List.dropWhile_cons, stored]
      rfl
  rw [trimmed]
  exact pruned.iterated

end

/-! ## Outcomes -/

/-- A replayed outcome: the same response, or an error with the same category, status
code and capacity fields. -/
def SameOutcome {α : Type} : Except TurnError α → Except TurnError α → Prop
  | .ok remembered, .ok replayed => replayed = remembered
  | .error remembered, .error replayed =>
    fromError replayed = .fromError remembered
  | _, _ => False

theorem SameOutcome.refl {α : Type} (outcome : Except TurnError α) :
    SameOutcome outcome outcome := by
  cases outcome <;> rfl

/-- Neither a busy thread nor a refused admission. -/
def TurnError.Plain : TurnError → Prop
  | .threadBusy _ | .admissionRejected _ => False
  | _ => True

theorem TurnError.fromError_toError {error : TurnError} (plain : error.Plain) :
    fromError (fromError error).toError =
      .fromError error := by
  cases error <;> first | rfl | cases plain

def PlainOutcome {α : Type} (outcome : Except TurnError α) : Prop :=
  ∀ error, outcome = .error error → error.Plain

variable {result : Except TurnError SubmitTurnResponse}

theorem replaySubmit_of_record (createdAt : TurnTimestamp) (key : SubmitIdempotencyKey)
    (decided : ∀ busy, result ≠ .error (.threadBusy busy)) :
    ∃ replayed, (submitIdempotencyRecord key result createdAt).replaySubmit = some replayed ∧
      SameOutcome result replayed := by
  rcases result with error | _
  · cases error with
    | threadBusy busy => exact absurd rfl (decided busy)
    | admissionRejected => exact ⟨_, rfl, rfl⟩
    | _ => exact ⟨_, rfl, fromError_toError trivial⟩
  · exact ⟨_, rfl, rfl⟩

theorem replayed_of_plain {ν : Type} (replay : TurnIdempotencyRecord → Option (Except TurnError ν))
    (write : Except TurnError ν → TurnIdempotencyRecord) {result : Except TurnError ν}
    (plain : PlainOutcome result)
    (response : ∀ value, replay (write (.ok value)) = some (.ok value))
    (error : ∀ error : TurnError, error.Plain →
      replay (write (.error error)) = some (.error (fromError error).toError)) :
    ∃ replayed, replay (write result) = some replayed ∧ SameOutcome result replayed := by
  cases result with
  | error failed => exact ⟨_, error _ (plain failed rfl), fromError_toError (plain failed rfl)⟩
  | ok value => exact ⟨_, response value, rfl⟩

/-! ## Backed tables -/

abbrev PersistedRows := Table PersistedIdempotencyKey TurnIdempotencyRecord

/-- The rows after a new one is stored and those of evicted keys are removed. -/
def rowsAfter (rows : PersistedRows) (row : TurnIdempotencyRecord)
    (evicted : List PersistedIdempotencyKey) : PersistedRows :=
  evicted.foldl remove (rows.insert (persistedKeyForRecord row) row)

theorem get_rowsAfter (rows : PersistedRows) (row : TurnIdempotencyRecord)
    (evicted : List PersistedIdempotencyKey) (key : PersistedIdempotencyKey) :
    (rowsAfter rows row evicted).get key = if key ∈ evicted then none
      else if key = persistedKeyForRecord row then some row else rows.get key := by
  rw [rowsAfter, get_foldl_remove, get_insert]

section

variable {κ ν : Type} [DecidableEq κ] {persisted : κ → PersistedIdempotencyKey}
  {replay : TurnIdempotencyRecord → Option (Except TurnError ν)}
  {map : Table κ (Except TurnError ν)} {order : List κ} {rows : PersistedRows}

/-- A replay table with its order, and a row behind each of its outcomes. -/
structure Backed (persisted : κ → PersistedIdempotencyKey)
    (replay : TurnIdempotencyRecord → Option (Except TurnError ν))
    (map : Table κ (Except TurnError ν)) (order : List κ) (rows : PersistedRows) : Prop where
  iterated : map.IteratedBy order
  row : ∀ {key result}, map.get key = some result → ∃ row replayed,
    rows.get (persisted key) = some row ∧ replay row = some replayed ∧ SameOutcome result replayed

theorem Backed.of_kept {kept : PersistedRows} (backed : Backed persisted replay map order rows)
    (same : ∀ {key result}, map.get key = some result →
      kept.get (persisted key) = rows.get (persisted key)) :
    Backed persisted replay map order kept := by
  refine ⟨backed.iterated, fun {key result} held => ?_⟩
  rw [same held]
  exact backed.row held

/-- Rows of another operation may change: their keys differ. -/
theorem Backed.beside (backed : Backed persisted replay map order rows) {ι : Type}
    {theirs : ι → PersistedIdempotencyKey} {other : ι} {written : TurnIdempotencyRecord}
    (keyed : persistedKeyForRecord written = theirs other) (evicted : List ι)
    (operation : ∀ {key other}, (persisted key).operation ≠ (theirs other).operation) :
    Backed persisted replay map order (rowsAfter rows written (evicted.map theirs)) := by
  refine backed.of_kept fun {key _} _ => ?_
  have unlisted : persisted key ∉ evicted.map theirs := by
    rw [List.mem_map]
    rintro ⟨lost, _, equal⟩
    exact @operation key lost (by rw [equal])
  have different : persisted key ≠ persistedKeyForRecord written :=
    fun equal => @operation key other (by rw [equal, keyed])
  rw [get_rowsAfter, if_neg unlisted, if_neg different]

variable {maxLen : Nat} {key : κ} {result replayed : Except TurnError ν}
  {row : TurnIdempotencyRecord}

/-- The row of a key that is not in the table may change too. -/
theorem Backed.overwrite (backed : Backed persisted replay map order rows)
    (injective : Function.Injective persisted) (absent : map.get key = none)
    (keyed : persistedKeyForRecord row = persisted key) :
    Backed persisted replay map order (rowsAfter rows row []) := by
  refine backed.of_kept fun {other _} held => ?_
  have different : persisted other ≠ persistedKeyForRecord row := by
    rw [keyed]
    intro equal
    rw [injective equal, absent] at held
    cases held
  rw [get_rowsAfter, if_neg List.not_mem_nil, if_neg different]

theorem Backed.remember (backed : Backed persisted replay map order rows)
    (injective : Function.Injective persisted) (keyed : persistedKeyForRecord row = persisted key)
    (replays : replay row = some replayed) (same : SameOutcome result replayed) :
    Backed persisted replay (rememberOrdered map order key result maxLen).1
      (rememberOrdered map order key result maxLen).2.1
      (rowsAfter rows row ((rememberOrdered map order key result maxLen).2.2.map persisted)) := by
  have pruned := @rememberOrdered_pruned _ _ _ maxLen _ _ backed.iterated key result
  refine ⟨pruned.iterated, fun {other outcome} held => ?_⟩
  rw [pruned.get] at held
  split at held
  · cases held
  rename_i kept
  have unevicted : persisted other ∉
      (rememberOrdered map order key result maxLen).2.2.map persisted := by
    rw [List.mem_map]
    rintro ⟨_, listed, equal⟩
    exact kept (injective equal ▸ listed)
  rw [get_insert] at held
  simp only [get_rowsAfter, if_neg unevicted, keyed]
  split at held
  next own =>
    cases held
    exact ⟨row, replayed, by rw [own, if_pos rfl], replays, same⟩
  next different =>
    rw [if_neg fun equal => different (injective equal)]
    exact backed.row held

/-- The persisted rows have room for the row of a key: it replaces one, the shared bound
is not reached, or the replay table of its operation is full and gives a row up. -/
def RowRoom (maxLen : Nat) (rows : PersistedRows) (key : PersistedIdempotencyKey)
    (tableFull : Prop) : Prop :=
  rows.containsKey key = true ∨ rows.keys.card < maxLen * 4 ∨ tableFull

variable (result) in
theorem Backed.card_remember_le (backed : Backed persisted replay map order rows)
    (absent : map.get key = none) (keyed : persistedKeyForRecord row = persisted key)
    (fits : rows.keys.card ≤ maxLen * 4)
    (room : RowRoom maxLen rows (persisted key) (maxLen ≤ map.keys.card)) : (rowsAfter rows row
      ((rememberOrdered map order key result maxLen).2.2.map persisted)).keys.card ≤
        maxLen * 4 := by
  have pruned := @rememberOrdered_pruned _ _ _ maxLen _ _ backed.iterated key result
  generalize (rememberOrdered map order key result maxLen).2.2 = removed at pruned
  have subset : (rowsAfter rows row (removed.map persisted)).keys ⊆
      insert (persisted key) rows.keys := by
    intro _ listed
    rw [mem_keys, get_rowsAfter] at listed
    split at listed
    · cases listed
    split at listed
    next own =>
      rw [own, keyed]
      exact mem_insert_self _ _
    · exact mem_insert_of_mem (mem_keys.mpr listed)
  rcases room with stored | below | full
  · rw [insert_eq_of_mem (mem_keys.mpr stored)] at subset
    exact (card_le_card subset).trans fits
  · exact ((card_le_card subset).trans (card_insert_le _ _)).trans below
  · -- The table was full, so it gave up a key whose row was there.
    have unlisted : key ∉ map.keys := by
      rw [mem_keys, absent]
      exact Bool.false_ne_true
    have overfull : maxLen < (map.insert key result).keys.card := by
      rw [keys_insert, card_insert_of_notMem unlisted]
      exact Nat.lt_succ_of_le full
    obtain ⟨lost, listed⟩ := List.exists_mem_of_ne_nil _ (pruned.full overfull)
    have gone : persisted lost ∉ (rowsAfter rows row (removed.map persisted)).keys := by
      rw [mem_keys, get_rowsAfter, if_pos (List.mem_map_of_mem listed)]
      exact Bool.false_ne_true
    have stored : persisted lost ∈ insert (persisted key) rows.keys := by
      have present := pruned.present lost listed
      rw [get_insert] at present
      split at present
      next own =>
        rw [own]
        exact mem_insert_self _ _
      · obtain ⟨_, held⟩ := Option.isSome_iff_exists.mp present
        obtain ⟨_, _, found, _⟩ := backed.row held
        exact mem_insert_of_mem (mem_keys.mpr (by rw [found]; rfl))
    have fewer := card_lt_card (ssubset_iff_of_subset subset |>.mpr
      ⟨_, stored, gone⟩)
    have grown := card_insert_le (persisted key) rows.keys
    omega

end

theorem persistedSubmitKey_injective : Function.Injective persistedSubmitKey := by
  rintro ⟨_, _⟩ ⟨_, _⟩ equal
  cases equal
  rfl

theorem persistedRunKey_injective (operation : TurnIdempotencyOperationKind) :
    Function.Injective (persistedRunKey operation) := by
  rintro ⟨_, _, _⟩ ⟨_, _, _⟩ equal
  cases equal
  rfl

/-! ## The whole memory -/

/-- Every remembered outcome has a row behind it. -/
structure ReplayMemory.Faithful (memory : ReplayMemory) : Prop where
  keyed : ∀ {key row}, memory.idempotencyRecords.get key = some row →
    persistedKeyForRecord row = key
  submit : Backed persistedSubmitKey replaySubmit
    memory.submitIdempotency memory.submitIdempotencyOrder memory.idempotencyRecords
  resume : Backed (persistedRunKey .resume) replayResume
    memory.resumeIdempotency memory.resumeIdempotencyOrder memory.idempotencyRecords
  retry : Backed (persistedRunKey .retry) replayRetry
    memory.retryIdempotency memory.retryIdempotencyOrder memory.idempotencyRecords
  cancel : Backed (persistedRunKey .cancel) replayCancel
    memory.cancelIdempotency memory.cancelIdempotencyOrder memory.idempotencyRecords

variable {inner : Inner} {after : ReplayMemory} {rows : PersistedRows} {row : TurnIdempotencyRecord}

theorem keyed_rowsAfter
    (keyed : ∀ {key row}, rows.get key = some row → persistedKeyForRecord row = key)
    (written : TurnIdempotencyRecord) (evicted : List PersistedIdempotencyKey)
    {key : PersistedIdempotencyKey} (stored : (rowsAfter rows written evicted).get key = some row) :
    persistedKeyForRecord row = key := by
  rw [get_rowsAfter] at stored
  split at stored
  · cases stored
  split at stored
  next own =>
    cases stored
    exact own.symm
  · exact keyed stored

/-- The key under which a call may remember its outcome. -/
inductive RecallKey where
  | submit (key : SubmitIdempotencyKey)
  | resume (key : RunIdempotencyKey)
  | retry (key : RunIdempotencyKey)
  | cancel (key : RunIdempotencyKey)
  deriving DecidableEq

/-- There is room for the row of a call.  A retry of a busy thread gives no row up. -/
def Inner.RoomToRemember (inner : Inner) : RecallKey → Prop
  | .submit key => RowRoom inner.limits.maxIdempotencyRecords inner.idempotencyRecords
      (persistedSubmitKey key)
      (inner.limits.maxIdempotencyRecords ≤ inner.submitIdempotency.keys.card)
  | .resume key => RowRoom inner.limits.maxIdempotencyRecords inner.idempotencyRecords
      (persistedRunKey .resume key)
      (inner.limits.maxIdempotencyRecords ≤ inner.resumeIdempotency.keys.card)
  | .retry key => RowRoom inner.limits.maxIdempotencyRecords inner.idempotencyRecords
      (persistedRunKey .retry key)
      (inner.limits.maxIdempotencyRecords ≤ inner.retryIdempotency.keys.card ∧
        inner.threadBusy ⟨key.scope⟩ = none)
  | .cancel key => RowRoom inner.limits.maxIdempotencyRecords inner.idempotencyRecords
      (persistedRunKey .cancel key)
      (inner.limits.maxIdempotencyRecords ≤ inner.cancelIdempotency.keys.card)

variable {key : RunIdempotencyKey}

namespace Inner

def RowsFit (inner : Inner) : Prop :=
  inner.idempotencyRecords.keys.card ≤ inner.limits.maxIdempotencyRecords * 4

/-- The rows are within the bound and stand behind every remembered outcome. -/
structure KeepsRows (inner : Inner) : Prop where
  faithful : inner.memory.Faithful
  fits : inner.RowsFit

namespace KeepsRows

variable {inner : Inner} (kept : inner.KeepsRows) (createdAt : TurnTimestamp)

include kept

theorem pruneIdempotencyRecords : inner.pruneIdempotencyRecords.KeepsRows := by
  have same : inner.pruneIdempotencyRecords.idempotencyRecords = inner.idempotencyRecords :=
    pruneOrderedMap_of_fits _ kept.fits
  obtain ⟨⟨rowKeys, submit, resume, retry, cancel⟩, fits⟩ := kept
  constructor
  · rw [memory, same]
    exact ⟨rowKeys, submit, resume, retry, cancel⟩
  · rw [RowsFit, same]
    exact fits

theorem rememberSubmit {key : SubmitIdempotencyKey}
    (absent : inner.submitIdempotency.get key = none)
    (decided : ∀ busy, result ≠ .error (.threadBusy busy))
    (room : inner.RoomToRemember (.submit key)) :
    (inner.rememberSubmitIdempotency key result createdAt).KeepsRows := by
  obtain ⟨⟨rowKeys, submit, resume, retry, cancel⟩, fits⟩ := kept
  obtain ⟨_, replays, same⟩ := replaySubmit_of_record createdAt key decided
  have keyed : persistedKeyForRecord (submitIdempotencyRecord key result createdAt) =
      persistedSubmitKey key := rfl
  have card := submit.card_remember_le result absent keyed fits room
  exact pruneIdempotencyRecords ⟨⟨keyed_rowsAfter rowKeys _ _,
    submit.remember persistedSubmitKey_injective keyed replays same, resume.beside keyed _ nofun,
    retry.beside keyed _ nofun, cancel.beside keyed _ nofun⟩, card⟩

theorem rememberResume {result : Except TurnError ResumeTurnResponse}
    (absent : inner.resumeIdempotency.get key = none)
    (plain : PlainOutcome result) (room : inner.RoomToRemember (.resume key)) :
    (inner.rememberResumeIdempotency key result createdAt).KeepsRows := by
  obtain ⟨⟨rowKeys, submit, resume, retry, cancel⟩, fits⟩ := kept
  obtain ⟨_, replays, same⟩ := replayed_of_plain replayResume
    (resumeIdempotencyRecord key · createdAt) plain (fun _ => rfl) fun _ _ => rfl
  have keyed : persistedKeyForRecord (resumeIdempotencyRecord key result createdAt) =
      persistedRunKey .resume key := rfl
  have card := resume.card_remember_le result absent keyed fits room
  exact pruneIdempotencyRecords ⟨⟨keyed_rowsAfter rowKeys _ _, submit.beside keyed _ nofun,
    resume.remember (persistedRunKey_injective _) keyed replays same, retry.beside keyed _ nofun,
    cancel.beside keyed _ nofun⟩, card⟩

theorem rememberCancel {result : Except TurnError CancelRunResponse}
    (absent : inner.cancelIdempotency.get key = none)
    (plain : PlainOutcome result) (room : inner.RoomToRemember (.cancel key)) :
    (inner.rememberCancelIdempotency key result createdAt).KeepsRows := by
  obtain ⟨⟨rowKeys, submit, resume, retry, cancel⟩, fits⟩ := kept
  obtain ⟨_, replays, same⟩ := replayed_of_plain replayCancel
    (cancelIdempotencyRecord key · createdAt) plain (fun _ => rfl) fun _ _ => rfl
  have keyed : persistedKeyForRecord (cancelIdempotencyRecord key result createdAt) =
      persistedRunKey .cancel key := rfl
  have card := cancel.card_remember_le result absent keyed fits room
  exact pruneIdempotencyRecords ⟨⟨keyed_rowsAfter rowKeys _ _, submit.beside keyed _ nofun,
    resume.beside keyed _ nofun, retry.beside keyed _ nofun,
    cancel.remember (persistedRunKey_injective _) keyed replays same⟩, card⟩

omit kept in
theorem rememberRetryIdempotency_of_plain
    {result : Except TurnError RetryTurnResponse} (plain : PlainOutcome result) :
    inner.rememberRetryIdempotency key result createdAt =
      let persisted := inner.rememberPersistedIdempotency
        (retryIdempotencyRecord key result createdAt)
      let kept := rememberOrdered persisted.retryIdempotency persisted.retryIdempotencyOrder key
        result persisted.limits.maxIdempotencyRecords
      ({ persisted with
          retryIdempotency := kept.1
          retryIdempotencyOrder := kept.2.1 }.removePersistedIdempotency
        (kept.2.2.map (persistedRunKey .retry))).pruneIdempotencyRecords := by
  rcases result with error | _
  · have plainError := plain error rfl
    cases error <;> first | rfl | cases plainError
  · rfl

theorem rememberRetry {result : Except TurnError RetryTurnResponse}
    (absent : inner.retryIdempotency.get key = none)
    (plain : PlainOutcome result) (room : inner.RoomToRemember (.retry key)) :
    (inner.rememberRetryIdempotency key result createdAt).KeepsRows := by
  obtain ⟨⟨rowKeys, submit, resume, retry, cancel⟩, fits⟩ := kept
  obtain ⟨_, replays, same⟩ := replayed_of_plain replayRetry
    (retryIdempotencyRecord key · createdAt) plain (fun _ => rfl) fun error plainError => by
      cases error <;> first | rfl | cases plainError
  have keyed : persistedKeyForRecord (retryIdempotencyRecord key result createdAt) =
      persistedRunKey .retry key := rfl
  have card := retry.card_remember_le result absent keyed fits
    (Or.imp id (Or.imp id And.left) room)
  rw [rememberRetryIdempotency_of_plain createdAt plain]
  exact pruneIdempotencyRecords ⟨⟨keyed_rowsAfter rowKeys _ _, submit.beside keyed _ nofun,
    resume.beside keyed _ nofun, retry.remember (persistedRunKey_injective _) keyed replays same,
    cancel.beside keyed _ nofun⟩, card⟩

theorem rememberRetry_busy {busy : ThreadBusy} (absent : inner.retryIdempotency.get key = none)
    (locked : inner.threadBusy ⟨key.scope⟩ = some busy) (room : inner.RoomToRemember (.retry key)) :
    (inner.rememberRetryIdempotency key (.error (.threadBusy busy)) createdAt).KeepsRows := by
  obtain ⟨⟨rowKeys, submit, resume, retry, cancel⟩, fits⟩ := kept
  have keyed : persistedKeyForRecord
      (retryIdempotencyRecord key (.error (.threadBusy busy)) createdAt) =
      persistedRunKey .retry key := rfl
  have card : (rowsAfter inner.idempotencyRecords
      (retryIdempotencyRecord key (.error (.threadBusy busy)) createdAt) []).keys.card ≤
        inner.limits.maxIdempotencyRecords * 4 := by
    rw [rowsAfter, List.foldl_nil, keys_insert, keyed]
    rcases room with stored | below | ⟨_, free⟩
    · rw [insert_eq_of_mem (mem_keys.mpr stored)]
      exact fits
    · exact (card_insert_le _ _).trans below
    · cases free.symm.trans locked
  exact pruneIdempotencyRecords ⟨⟨keyed_rowsAfter rowKeys _ [], submit.beside keyed [] nofun,
    resume.beside keyed [] nofun, retry.overwrite (persistedRunKey_injective _) absent keyed,
    cancel.beside keyed [] nofun⟩, card⟩

end KeepsRows

end Inner

/-! ## What a step remembers -/

def StoreOp.recallKey : StoreOp → Option RecallKey
  | .refuseLineage key _ | .submitAdmission _ key _ | .submitCommit _ key _
  | .submitChildLineage key _ | .submitChildCommit _ key _ => some (.submit key)
  | .resumeTurn _ request => some (.resume ⟨request.scope, request.runId, request.idempotencyKey⟩)
  | .retryTurn _ request => some (.retry ⟨request.scope, request.runId, request.idempotencyKey⟩)
  | .requestCancel _ request =>
    some (.cancel ⟨request.scope, request.runId, request.idempotencyKey⟩)
  | _ => none

/-- The memory a step leaves behind: an outcome is remembered only for a key that has
none, and no busy thread is remembered. -/
inductive Inner.Recalls (inner : Inner) (after : ReplayMemory) : Option RecallKey → Prop where
  | kept {key? : Option RecallKey} (same : after = inner.memory) : Recalls inner after key?
  | trimmed {key? : Option RecallKey} (same : after = inner.pruneIdempotencyRecords.memory) :
      Recalls inner after key?
  | submit {key : SubmitIdempotencyKey} (result : Except TurnError SubmitTurnResponse)
      (createdAt : TurnTimestamp) (absent : inner.submitIdempotency.get key = none)
      (decided : ∀ busy, result ≠ .error (.threadBusy busy))
      (same : after = (inner.rememberSubmitIdempotency key result createdAt).memory) :
      Recalls inner after (some (.submit key))
  | resume {key : RunIdempotencyKey} (result : Except TurnError ResumeTurnResponse)
      (createdAt : TurnTimestamp) (absent : inner.resumeIdempotency.get key = none)
      (plain : PlainOutcome result)
      (same : after = (inner.rememberResumeIdempotency key result createdAt).memory) :
      Recalls inner after (some (.resume key))
  | retry {key : RunIdempotencyKey} (result : Except TurnError RetryTurnResponse)
      (createdAt : TurnTimestamp) (absent : inner.retryIdempotency.get key = none)
      (plain : PlainOutcome result)
      (same : after = (inner.rememberRetryIdempotency key result createdAt).memory) :
      Recalls inner after (some (.retry key))
  | retryBusy {key : RunIdempotencyKey} (busy : ThreadBusy) (createdAt : TurnTimestamp)
      (absent : inner.retryIdempotency.get key = none)
      (locked : inner.threadBusy ⟨key.scope⟩ = some busy)
      (same : after = (inner.rememberRetryIdempotency key (.error (.threadBusy busy))
        createdAt).memory) :
      Recalls inner after (some (.retry key))
  | cancel {key : RunIdempotencyKey} (result : Except TurnError CancelRunResponse)
      (createdAt : TurnTimestamp) (absent : inner.cancelIdempotency.get key = none)
      (plain : PlainOutcome result)
      (same : after = (inner.rememberCancelIdempotency key result createdAt).memory) :
      Recalls inner after (some (.cancel key))

/-- A remembered submission stays or is dropped, and what is newly remembered is not a
busy thread. -/
theorem Inner.Recalls.submit_cases {key? : Option RecallKey} (recalls : inner.Recalls after key?)
    (key : SubmitIdempotencyKey) :
    after.submitIdempotency.get key = inner.submitIdempotency.get key ∨
      after.submitIdempotency.get key = none ∨
      ∃ result, inner.submitIdempotency.get key = none ∧
        after.submitIdempotency.get key = some result ∧
        ∀ busy, result ≠ .error (.threadBusy busy) := by
  cases recalls with
  | kept same | trimmed same | resume _ _ _ _ same | retryBusy _ _ _ _ same
  | cancel _ _ _ _ same => exact .inl (by rw [same]; rfl)
  | @submit own result createdAt absent decided same =>
    have remembered : after.submitIdempotency.get key =
        (inner.submitIdempotency.insert own result).get key ∨
          after.submitIdempotency.get key = none := by
      rw [same]
      exact get_dropOldest _ _ _ key
    rw [get_insert] at remembered
    rcases remembered with kept | dropped
    · split at kept
      next equal =>
        rw [equal]
        exact .inr (.inr ⟨result, absent, equal ▸ kept, decided⟩)
      · exact .inl kept
    · exact .inr (.inl dropped)
  | retry result createdAt absent plain same =>
    refine .inl ?_
    rw [same]
    unfold rememberRetryIdempotency
    split <;> rfl

theorem Inner.Recalls.resume_kept {key? : Option RecallKey} (recalls : inner.Recalls after key?)
    (other : key? ≠ some (.resume key)) :
    after.resumeIdempotency.get key = inner.resumeIdempotency.get key ∨
      after.resumeIdempotency.get key = none := by
  cases recalls with
  | kept same | trimmed same | submit _ _ _ _ same | retryBusy _ _ _ _ same
  | cancel _ _ _ _ same => exact .inl (by rw [same]; rfl)
  | @resume own result _ _ _ same =>
    have different : key ≠ own := fun equal => other (by rw [equal])
    have remembered : after.resumeIdempotency.get key =
        (inner.resumeIdempotency.insert own result).get key ∨
          after.resumeIdempotency.get key = none := by
      rw [same]
      exact get_dropOldest _ _ _ key
    rwa [get_insert_of_ne _ _ different] at remembered
  | retry _ _ _ _ same =>
    refine .inl ?_
    rw [same]
    unfold rememberRetryIdempotency
    split <;> rfl

namespace Inner

/-- A store with the given memory and limits and nothing else. -/
def ofMemory (memory : ReplayMemory) (limits : InMemoryTurnStateStoreLimits) : Inner :=
  { withLimits limits with
    submitIdempotency := memory.submitIdempotency
    resumeIdempotency := memory.resumeIdempotency
    retryIdempotency := memory.retryIdempotency
    cancelIdempotency := memory.cancelIdempotency
    idempotencyRecords := memory.idempotencyRecords
    submitIdempotencyOrder := memory.submitIdempotencyOrder
    resumeIdempotencyOrder := memory.resumeIdempotencyOrder
    retryIdempotencyOrder := memory.retryIdempotencyOrder
    cancelIdempotencyOrder := memory.cancelIdempotencyOrder
    idempotencyRecordOrder := memory.idempotencyRecordOrder }

variable {first second : Inner}

theorem memory_congr {α : Type} (read : Inner → α)
    (reads : ∀ inner, read inner = read (ofMemory inner.memory inner.limits))
    (limits : second.limits = first.limits)
    (memory : second.memory = first.memory) : read second = read first := by
  rw [reads second, reads first, memory, limits]

variable {inner : Inner}

/-! ### Submissions -/

theorem decideSubmit_recalls {middle : Inner} (limits : middle.limits = inner.limits)
    (memory : middle.memory = inner.memory) {key : SubmitIdempotencyKey}
    (absent : inner.submitIdempotency.get key = none)
    (decided : ∀ busy, result ≠ .error (.threadBusy busy)) (createdAt : TurnTimestamp) :
    inner.Recalls (middle.decideSubmit key result createdAt).2.memory (some (.submit key)) :=
  .submit result createdAt absent decided
    (memory_congr (fun inner => (inner.rememberSubmitIdempotency key result createdAt).memory)
      (fun _ => rfl) limits memory)

theorem SectionEnd.recalls {key : SubmitIdempotencyKey} {commit? : Option Commit} {forks : Prop}
    {ended : SubmitResult × Inner} (ends : SectionEnd inner key commit? forks ended) :
    inner.Recalls ended.2.memory (some (.submit key)) := by
  cases ends with
  | decided | passed => exact .kept rfl
  | refused trees _ absent error receivedAt =>
    cases error with
    | threadBusy => exact .kept rfl
    | _ =>
      refine @decideSubmit_recalls _ inner (inner.withTrees trees) rfl rfl _ absent ?_ receivedAt
      rintro _ ⟨⟩
  | accepted _ _ absent _ _ _ admitted =>
    have quiet := reserveAdmission_quiet admitted
    refine decideSubmit_recalls ?_ ?_ absent (by rintro _ ⟨⟩) _
    · exact quiet.limits
    · exact quiet.memory

/-! ### Resuming, retrying and cancelling -/

variable (context : CallContext) (now : TurnTimestamp) (request : ResumeTurnRequest)

theorem resumeTurnOnce_plain (inner : Inner) :
    PlainOutcome (inner.resumeTurnOnce now request).1 := by
  fun_cases inner.resumeTurnOnce now request <;> rintro _ ⟨⟩ <;> trivial

theorem resumeTurn_recalls : inner.Recalls (inner.resumeTurn now request).2.memory
      (some (.resume ⟨request.scope, request.runId, request.idempotencyKey⟩)) := by
  unfold resumeTurn
  dsimp only
  split
  · exact .kept rfl
  rename_i absent
  have quiet := (@resumeTurnOnce_ends inner now False (fun _ => False) request).quiet
  exact .resume _ _ absent (resumeTurnOnce_plain now request inner)
    (memory_congr (fun inner => (inner.rememberResumeIdempotency _ _ now).memory)
      (fun _ => rfl) quiet.limits quiet.memory)

theorem requestCancelOnce_plain (request : CancelRunRequest) (inner : Inner) :
    PlainOutcome (inner.requestCancelOnce now request).1 := by
  fun_cases inner.requestCancelOnce now request <;> rintro _ ⟨⟩ <;> trivial

theorem requestCancel_recalls (request : CancelRunRequest) :
    inner.Recalls (inner.requestCancel now request).2.memory
      (some (.cancel ⟨request.scope, request.runId, request.idempotencyKey⟩)) := by
  unfold requestCancel
  dsimp only
  split
  · exact .kept rfl
  rename_i absent
  obtain ⟨_, ends⟩ := @requestCancelOnce_ends inner now False request
  have quiet := ends.quiet
  exact .cancel _ _ absent (requestCancelOnce_plain now request inner)
    (memory_congr (fun inner => (inner.rememberCancelIdempotency _ _ now).memory)
      (fun _ => rfl) quiet.limits quiet.memory)

theorem retryTurnOnce_outcome (request : RetryTurnRequest) (inner : Inner) :
    PlainOutcome (inner.retryTurnOnce context request).1 ∨
      (∃ busy, inner.threadBusy ⟨request.scope⟩ = some busy ∧
        (inner.retryTurnOnce context request).1 = .error (.threadBusy busy)) ∨
      ∃ rejection, (inner.retryTurnOnce context request).1 =
        .error (.admissionRejected rejection) := by
  unfold retryTurnOnce
  split
  next refused =>
    refine .inl ?_
    rintro _ ⟨⟩
    revert refused
    fun_cases inner.retrySource request <;> rintro ⟨⟩ <;> trivial
  next chosen =>
    rw [(spec_of_retrySource chosen).2]
    split
    next busy locked => exact .inr (.inl ⟨busy, locked, rfl⟩)
    split
    · exact .inr (.inr ⟨_, rfl⟩)
    · exact .inl (by rintro _ ⟨⟩)

theorem retryTurn_recalls (request : RetryTurnRequest) :
    inner.Recalls (inner.retryTurn context request).2.memory
      (some (.retry ⟨request.scope, request.runId, request.idempotencyKey⟩)) := by
  unfold retryTurn
  dsimp only
  split
  · exact .kept rfl
  rename_i absent
  have quiet := retryTurnOnce_quiet context request inner
  have same := memory_congr (fun store => (store.rememberRetryIdempotency
    ⟨request.scope, request.runId, request.idempotencyKey⟩ (inner.retryTurnOnce context request).1
      context.now).memory) (fun store => by unfold rememberRetryIdempotency; split <;> rfl)
    quiet.limits quiet.memory
  rw [same]
  rcases retryTurnOnce_outcome context request inner with
    plain | ⟨busy, locked, answer⟩ | ⟨_, answer⟩
  · exact .retry _ _ absent plain rfl
  · rw [answer]
    exact .retryBusy busy _ absent locked rfl
  · rw [answer]
    exact .trimmed rfl

end Inner

open Turns.Inner in
/-- Every step leaves the memory as it is or remembers the outcome of its call. -/
theorem StoreOp.apply_recalls (env : StoreEnv) (inner : Inner) (op : StoreOp) :
    inner.Recalls (op.apply env inner).memory op.recallKey := by
  cases op with
  | refuseLineage => exact (refuseLineage_ends inner _ _).recalls
  | submitAdmission => exact (submitAdmission_ends inner ..).recalls
  | submitCommit => exact (submitCommit_ends inner _ env _ _).recalls
  | submitChildLineage => exact (submitChildLineage_ends inner _ _).recalls
  | submitChildCommit => exact (submitChildCommit_ends inner ..).recalls
  | resumeTurn => exact resumeTurn_recalls _ _
  | retryTurn => exact retryTurn_recalls _ _
  | requestCancel => exact requestCancel_recalls _ _
  | reserveTreeDescendants => exact .kept (reserveTreeDescendants_treeWrite _ _ _ _ inner).memory
  | releaseTreeDescendants => exact .kept (releaseTreeDescendants_treeWrite _ _ _ _ inner).memory
  | pruneReleasedChild => exact .kept (pruneReleasedChild_treeWrite _ _ _ inner).memory
  | _ => exact .kept (StoreOp.apply_quiet env inner (by rintro ⟨⟩) (by rintro ⟨⟩)).memory

end Ironclaw.Turns
