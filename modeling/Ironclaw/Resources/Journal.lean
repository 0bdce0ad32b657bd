import Ironclaw.HostApi.Encoding
import Ironclaw.Lib.Checkpoint
import Ironclaw.Resources.Holds

/-!
# The journal of the persistent governor

Every operation that was done is written to a journal as JSON, and the state is loaded by
replaying it.  A value is read back as it was written, except for identifiers that the
decoder refuses and for floating-point numbers, which may change or be lost.
-/

namespace Ironclaw.Resources

open HostApi Lib ResourceState ResourceScope

/-! ## Values in JSON -/

/-- Whether an account is read back from the JSON it is written as. -/
def ResourceAccount.readable : ResourceAccount → Bool
  | .tenant tenantId => validateScopeId tenantId.value
  | .user tenantId userId => validateScopeId tenantId.value && validateScopeId userId.value
  | .project tenantId userId projectId =>
    validateScopeId tenantId.value && validateScopeId userId.value &&
      validateScopeId projectId.value
  | .agent tenantId userId projectId agentId =>
    validateScopeId tenantId.value && validateScopeId userId.value &&
      projectId.all (fun id => validateScopeId id.value) && validateScopeId agentId.value
  | .mission tenantId userId projectId missionId =>
    validateScopeId tenantId.value && validateScopeId userId.value &&
      projectId.all (fun id => validateScopeId id.value) && validateScopeId missionId.value
  | .thread tenantId userId projectId missionId threadId =>
    validateScopeId tenantId.value && validateScopeId userId.value &&
      projectId.all (fun id => validateScopeId id.value) &&
      missionId.all (fun id => validateScopeId id.value) && validateScopeId threadId.value

theorem ResourceAccount.readable_of_cascade {scope : ResourceScope}
    (strict : scope.strictlyReadable = true) {account : ResourceAccount}
    (member : account ∈ cascade scope) : account.readable = true := by
  simp only [strictlyReadable, narrowIdsReadable, Bool.and_eq_true] at strict
  obtain ⟨⟨_, _⟩, ⟨⟨_, _⟩, _⟩, _⟩ := strict
  simp only [cascade, List.mem_append, List.mem_cons, List.not_mem_nil, or_false,
    Option.mem_toList, Option.map_eq_some_iff] at member
  rcases member with (((((rfl | rfl) | ⟨id, found, rfl⟩) | ⟨id, found, rfl⟩) |
    ⟨id, found, rfl⟩) | ⟨id, found, rfl⟩)
  all_goals simp_all [readable]

section

variable [platform : Platform]

def BudgetThresholds.viaJson (thresholds : BudgetThresholds) : Option BudgetThresholds :=
  match platform.viaJson thresholds.warnAt, platform.viaJson thresholds.pauseAt with
  | some warnAt, some pauseAt => some ⟨warnAt, pauseAt⟩
  | _, _ => none

def ResourceLimits.viaJson (limits : ResourceLimits) : Option ResourceLimits :=
  limits.thresholds.viaJson.map fun thresholds => { limits with thresholds }

inductive ResourceGovernorDelta where
  | setLimit (account : ResourceAccount) (limits : ResourceLimits) (time : DateTime)
  | reserve (scope : ResourceScope) (estimate : ResourceEstimate)
      (reservationId : ResourceReservationId) (time : DateTime)
  | reconcile (reservationId : ResourceReservationId) (actual : ResourceUsage) (time : DateTime)
  | release (reservationId : ResourceReservationId) (time : DateTime)
  | accountSnapshot (account : ResourceAccount) (time : DateTime)

namespace ResourceGovernorDelta

def viaJson : ResourceGovernorDelta → Option ResourceGovernorDelta
  | .setLimit account limits time =>
    if account.readable then limits.viaJson.map fun limits => .setLimit account limits time
    else none
  | .reserve scope estimate reservationId time =>
    if scope.readable then some (.reserve scope estimate reservationId time) else none
  | .reconcile reservationId actual time => some (.reconcile reservationId actual time)
  | .release reservationId time => some (.release reservationId time)
  | .accountSnapshot account time =>
    if account.readable then some (.accountSnapshot account time) else none

def applyTo (delta : ResourceGovernorDelta) (state : ResourceState) :
    Except ResourceError ResourceState :=
  match delta with
  | .setLimit account limits time => .ok (setLimitInState state account limits time)
  | .reserve scope estimate reservationId time =>
    match reserveWithOutcomeInState state scope estimate reservationId time with
    | (.ok _, after) => .ok after
    | (.error error, _) => .error error
  | .reconcile reservationId actual time =>
    match reconcileInState state reservationId actual time with
    | (.ok _, after) => .ok after
    | (.error error, _) => .error error
  | .release reservationId time =>
    match releaseInState state reservationId time with
    | (.ok _, after) => .ok after
    | (.error error, _) => .error error
  -- The snapshot itself is dropped; it rolls the window of the account over.
  | .accountSnapshot account time => .ok (advancePeriodIfRolledOver state account time)

/-- The delta of an operation that was done. -/
def ofOp (op : ResourceOp) (now : DateTime) : ResourceGovernorDelta :=
  match op with
  | .setLimit account limits => .setLimit account limits now
  | .reserve scope estimate id => .reserve scope estimate id now
  | .reconcile id actual => .reconcile id actual now
  | .release id => .release id now

def replay (state : ResourceState) (delta : ResourceGovernorDelta) :
    Except ResourceError ResourceState :=
  match delta.viaJson with
  | none => .error (.storage "decode resource governor delta")
  | some decoded => decoded.applyTo state

end ResourceGovernorDelta

open ResourceGovernorDelta

def GovernorAnswer.result : GovernorAnswer → Except ResourceError Unit
  | .limitSet => .ok ()
  | .reserved outcome => outcome.map fun _ => ()
  | .closed receipt => receipt.map fun _ => ()

theorem GovernorAnswer.result_of_isOk {answer : GovernorAnswer} (done : answer.isOk = true) :
    answer.result = .ok () := by
  cases answer with
  | limitSet => rfl
  | reserved outcome =>
    cases outcome with
    | ok => rfl
    | error error => cases done
  | closed receipt =>
    cases receipt with
    | ok => rfl
    | error => cases done

variable (state : ResourceState)

theorem ResourceGovernorDelta.applyTo_ofOp_eq (op : ResourceOp) (now : DateTime) :
    (ofOp op now).applyTo state =
      (state.apply op now).1.result.map fun _ => (state.apply op now).2 := by
  cases op with
  | setLimit => rfl
  | reserve scope estimate id =>
    simp only [apply, ofOp, applyTo]
    rcases reserveWithOutcomeInState state scope estimate id now with ⟨_ | _, after⟩ <;> rfl
  | reconcile id actual =>
    simp only [apply, ofOp, applyTo]
    rcases reconcileInState state id actual now with ⟨_ | _, after⟩ <;> rfl
  | release id =>
    simp only [apply, ofOp, applyTo]
    rcases releaseInState state id now with ⟨_ | _, after⟩ <;> rfl

/-- A position in the journal; the first record has a positive one. -/
abbrev SeqNo := Nat

structure JournalRecord where
  seq : SeqNo
  delta : ResourceGovernorDelta

def tailJournal (journal : List JournalRecord) (start : SeqNo) : List JournalRecord :=
  behind JournalRecord.seq journal start

/-- The loop of `replay_journal` over the records. -/
def replayRecords (state : ResourceState) (latest : SeqNo) :
    List JournalRecord → Except ResourceError (ResourceState × SeqNo)
  | [] => .ok (state, latest)
  | record :: rest =>
    match record.delta.replay state with
    | .error error => .error error
    | .ok after => replayRecords after record.seq rest

/-- `replay_journal`; the holds are rebuilt first, from the reservations in the given order. -/
def replayJournal (order : List ResourceReservationId) (journal : List JournalRecord)
    (state : ResourceState) (start : SeqNo) : Except ResourceError (ResourceState × SeqNo) :=
  replayRecords (rebuildActiveHoldsFromReservations order state) start (tailJournal journal start)

abbrev replayDeltas (state : ResourceState) (deltas : List ResourceGovernorDelta) :
    Except ResourceError ResourceState :=
  replayAll replay state deltas

theorem replayDeltas_append (first second : List ResourceGovernorDelta) :
    replayDeltas state (first ++ second) = match replayDeltas state first with
      | .error error => .error error
      | .ok after => replayDeltas after second := by
  simp only [replayDeltas, replayAll_append]
  cases replayAll replay state first <;> rfl

/-- The loop replays the deltas and notes the position of each. -/
theorem replayRecords_eq_resume (latest : SeqNo) (records : List JournalRecord) :
    replayRecords state latest records =
      resume (fun state record => record.delta.replay state) JournalRecord.seq (state, latest)
        records := by
  induction records generalizing state latest with
  | nil => rfl
  | cons record _ ih =>
    simp only [replayRecords, resume, replayAll, advanceTo]
    cases record.delta.replay state with
    | error => rfl
    | ok after => exact ih after record.seq

theorem replayRecords_eq (latest : SeqNo) (records : List JournalRecord) :
    replayRecords state latest records =
      match replayDeltas state (records.map JournalRecord.delta) with
      | .error error => .error error
      | .ok after => .ok (after, (records.getLast?.map JournalRecord.seq).getD latest) := by
  induction records generalizing state latest with
  | nil => rfl
  | cons record rest ih =>
    simp only [replayRecords, List.map_cons, replayAll]
    cases record.delta.replay state with
    | error error => rfl
    | ok after =>
      simp only [ih, replayDeltas]
      cases replayAll replay after (rest.map JournalRecord.delta) with
      | error => rfl
      | ok =>
        cases rest with
        | nil => rfl
        | cons => simp [List.getLast?_cons]

end

end Ironclaw.Resources
