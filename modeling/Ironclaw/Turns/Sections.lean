import Ironclaw.Turns.Store

/-!
# How a call ends

Each critical section of a submission ends in one of four ways, and each spawn-tree call in
one of three.  A property of the store is proved for the ends, and holds after every call
that has them.
-/

namespace Ironclaw.Turns

open Lib

namespace Inner

variable {inner : Inner} {runId : TurnRunId} {context : CallContext}

/-! ## Checks and admission -/

variable {limitFor : TurnAdmissionBucket → Except Unit TurnAdmissionLimit} (scope : TurnScope)
    (rootRunId : TurnRunId)

theorem room_of_checkAdmissionBuckets {buckets : List TurnAdmissionBucket}
    (passed : inner.checkAdmissionBuckets limitFor buckets = .ok ()) :
    ∀ bucket ∈ buckets, ∃ limit, limitFor bucket = .ok limit ∧
      ∀ maxActive, limit.maxActive = some maxActive →
        inner.activeAdmissionCount bucket < maxActive := by
  induction buckets with
  | nil => exact fun bucket listed => absurd listed List.not_mem_nil
  | cons _ _ ih =>
    rw [checkAdmissionBuckets] at passed
    split at passed
    · cases passed
    rename_i limit answered
    split at passed
    next unlimited =>
      refine List.forall_mem_cons.mpr ⟨⟨limit, answered, ?_⟩, ih passed⟩
      intro maxActive capped
      rw [unlimited] at capped
      cases capped
    next cap limited =>
      split at passed
      · cases passed
      rename_i below
      refine List.forall_mem_cons.mpr ⟨⟨limit, answered, ?_⟩, ih passed⟩
      intro maxActive capped
      rw [limited] at capped
      cases capped
      exact Nat.not_le.mp below

theorem spec_of_reserveAdmission {reserved : Inner} {admissionClass : TurnAdmissionClass}
    {scope : TurnScope} {actor : TurnActor}
    (admitted : inner.reserveAdmission runId admissionClass scope actor limitFor = .ok reserved) :
    reserved = inner.insertAdmission runId admissionClass
        (admissionBuckets scope actor admissionClass) ∧
      ∀ bucket ∈ admissionBuckets scope actor admissionClass, ∃ limit,
        limitFor bucket = .ok limit ∧ ∀ maxActive, limit.maxActive = some maxActive →
          inner.activeAdmissionCount bucket < maxActive := by
  unfold reserveAdmission at admitted
  dsimp only at admitted
  split at admitted
  · cases admitted
  next passed =>
    cases admitted
    exact ⟨rfl, room_of_checkAdmissionBuckets passed⟩

theorem spec_of_submitCommitChecks {scope : TurnScope} {requestedRunId : Option TurnRunId}
    (passed : inner.submitCommitChecks context scope requestedRunId = .ok runId) :
    inner.threadBusy ⟨scope⟩ = none ∧ inner.records.get runId = none ∧
      requestedRunId.getD context.freshRunId = runId := by
  unfold submitCommitChecks at passed
  split at passed
  · cases passed
  rename_i idle
  dsimp only at passed
  split at passed
  · cases passed
  next unbound =>
    cases passed
    exact ⟨idle, by simpa [Table.containsKey] using unbound, rfl⟩

theorem spec_of_childCommitChecks {request : SubmitChildRunRequest} {plan : ChildPlan}
    (passed : inner.childCommitChecks context request = .ok plan) :
    inner.childParent request = .ok plan.parent ∧
      (∃ root, inner.treeRoot request.childScope plan.parent.spawnTreeRoot = .ok root) ∧
      inner.submitCommitChecks context request.childScope request.requestedRunId
        = .ok plan.runId ∧
      plan.reservationKey = .new request.childScope plan.parent.spawnTreeRoot ∧
      nextTreeCount (inner.treeState plan.reservationKey).count 1 request.spawnTreeDescendantCap
        = .ok plan.nextCount := by
  simp only [childCommitChecks, bind, Except.bind] at passed
  split at passed
  · cases passed
  rename_i parentOk
  split at passed
  · cases passed
  rename_i root rootOk
  split at passed
  · cases passed
  rename_i runOk
  split at passed
  · cases passed
  next _ nextOk =>
    cases passed
    exact ⟨parentOk, ⟨root, rootOk⟩, runOk, rfl, nextOk⟩

/-! ## Sections of a submission -/

def withTrees (inner : Inner) (trees : Table SpawnTreeReservationKey TreeReservationState) :
    Inner :=
  { inner with treeReservations := trees }

/-- What a section opens its run for. -/
structure Commit where
  context : CallContext
  scope : TurnScope
  requestedRunId : Option TurnRunId

/-- The end of a section; `forks` says that it may count the run in a spawn tree. -/
inductive SectionEnd (inner : Inner) (key : SubmitIdempotencyKey) (commit? : Option Commit)
    (forks : Prop) : SubmitResult × Inner → Prop where
  | decided {result : Except TurnError SubmitTurnResponse}
      (held : inner.submitIdempotency.get key = some result) :
      SectionEnd inner key commit? forks (some result, inner.clearInFlight key)
  | passed : SectionEnd inner key commit? forks (none, inner)
  | refused (trees : Table SpawnTreeReservationKey TreeReservationState)
      (kept : forks ∨ trees = inner.treeReservations)
      (absent : inner.submitIdempotency.get key = none) (error : TurnError)
      (receivedAt : TurnTimestamp) :
      SectionEnd inner key commit? forks ((inner.withTrees trees).refuseSubmit key error receivedAt)
  | accepted (trees : Table SpawnTreeReservationKey TreeReservationState)
      (kept : forks ∨ trees = inner.treeReservations)
      (absent : inner.submitIdempotency.get key = none) {context : CallContext}
      {request : SubmitTurnRequest} {runId : TurnRunId} {profile : TurnRunProfile}
      {reserved : Inner} (route : Option LoopModelRouteSnapshot)
      (given : commit? = some ⟨context, request.scope, request.requestedRunId⟩)
      (checked : inner.submitCommitChecks context request.scope request.requestedRunId = .ok runId)
      (admitted : (inner.withTrees trees).reserveAdmission runId profile.admissionClass
        request.scope request.actor context.limitFor = .ok reserved) :
      SectionEnd inner key commit? forks
        (reserved.acceptSubmit context key request runId profile route)

variable {key : SubmitIdempotencyKey} {commit? : Option Commit} {forks : Prop}

theorem unlessDecided_ends {otherwise : SubmitResult × Inner}
    (ends : inner.submitIdempotency.get key = none → SectionEnd inner key commit? forks otherwise) :
    SectionEnd inner key commit? forks (inner.unlessDecided key otherwise) := by
  unfold unlessDecided
  split
  next held => exact .decided held
  next absent => exact ends absent

theorem refuseSubmit_ends (absent : inner.submitIdempotency.get key = none) (error : TurnError)
    (receivedAt : TurnTimestamp) :
    SectionEnd inner key commit? forks (inner.refuseSubmit key error receivedAt) :=
  .refused inner.treeReservations (.inr rfl) absent error receivedAt

variable (inner key)

theorem refuseLineage_ends (receivedAt : TurnTimestamp) :
    SectionEnd inner key none False (inner.refuseLineage key receivedAt) :=
  unlessDecided_ends fun absent => refuseSubmit_ends absent _ _

theorem submitAdmission_ends (context : CallContext) (receivedAt : TurnTimestamp) :
    SectionEnd inner key none False (inner.submitAdmission context key receivedAt) := by
  refine unlessDecided_ends fun absent => ?_
  split
  · exact refuseSubmit_ends absent _ _
  · exact .passed

theorem submitChildLineage_ends (request : SubmitChildRunRequest) :
    SectionEnd inner key none False (inner.submitChildLineage key request) := by
  refine unlessDecided_ends fun absent => ?_
  split
  · exact refuseSubmit_ends absent _ _
  · exact .passed

theorem submitCommit_ends (env : StoreEnv) (context : CallContext) (request : SubmitTurnRequest) :
    SectionEnd inner key (some ⟨context, request.scope, request.requestedRunId⟩) False
      (inner.submitCommit env context key request) := by
  refine unlessDecided_ends fun absent => ?_
  split
  · exact refuseSubmit_ends absent _ _
  dsimp only
  split
  · exact refuseSubmit_ends absent _ _
  rename_i checked
  split
  · exact refuseSubmit_ends absent _ _
  next admitted => exact .accepted inner.treeReservations (.inr rfl) absent _ rfl checked admitted

/-- The tree counts the child before its admission is asked for. -/
theorem submitChildCommit_ends (context : CallContext) (request : SubmitChildRunRequest) :
    SectionEnd inner key (some ⟨context, request.childScope, request.requestedRunId⟩) True
      (inner.submitChildCommit context key request) := by
  refine unlessDecided_ends fun absent => ?_
  split
  · exact refuseSubmit_ends absent _ _
  dsimp only
  split
  · exact refuseSubmit_ends absent _ _
  rename_i plan passed
  split
  · unfold rollbackTreeReservation
    split <;> exact .refused _ (.inl trivial) absent _ _
  next admitted =>
    obtain ⟨_, _, checked, _, _⟩ := spec_of_childCommitChecks passed
    exact @SectionEnd.accepted _ _ _ _ _ (.inl trivial) absent context
      (childTemplate request plan.parent) _ _ _ none rfl checked admitted

/-! ## Spawn-tree calls -/

/-- What a spawn-tree call leaves behind; `empties` says that it may empty a tree. -/
inductive TreeWrite (inner : Inner) (empties : Prop) : Inner → Prop where
  | same : TreeWrite inner empties inner
  | stored (key : SpawnTreeReservationKey) (state : TreeReservationState) :
      TreeWrite inner empties (inner.insertTreeState key state)
  | emptied (key : SpawnTreeReservationKey) (rootRunId : TurnRunId) (may : empties) :
      TreeWrite inner empties ((inner.removeTreeState key).retireEmptyRoot rootRunId)

theorem reserveTreeDescendants_treeWrite (delta cap : Nat) (inner : Inner) :
    TreeWrite inner False (inner.reserveTreeDescendants scope rootRunId delta cap).2 := by
  fun_cases inner.reserveTreeDescendants scope rootRunId delta cap <;>
    first | exact .same | exact .stored _ _

theorem pruneReleasedChild_treeWrite (rootRunId childRunId : TurnRunId) (inner : Inner) :
    TreeWrite inner False (inner.pruneReleasedChild scope rootRunId childRunId).2 := by
  fun_cases inner.pruneReleasedChild scope rootRunId childRunId <;>
    first | exact .same | exact .stored _ _

theorem releaseTreeDescendants_treeWrite (delta : Nat) (idempotencyKey : TurnRunId)
    (inner : Inner) : TreeWrite inner True
      (inner.releaseTreeDescendants scope rootRunId delta idempotencyKey).2 := by
  fun_cases inner.releaseTreeDescendants scope rootRunId delta idempotencyKey <;>
    first | exact .same | exact .stored _ _ | exact .emptied _ _ trivial

end Inner

end Ironclaw.Turns
