import Ironclaw.Turns.Locks
import Ironclaw.Turns.Restart

/-!
# Admission accounting

A live run holds one unreleased reservation, and under fixed limits no bucket ever
holds more than its limit.  A run is admitted only where there is room, every other
move of the roster keeps or releases reservations, and a restart brings back what it
wrote.
-/

namespace Ironclaw.Turns

open Lib Turns.Inner Table

namespace Roster

/-! ## Buckets -/

variable {before after : Roster} {leaks : Prop} {opening : Opening} {record : RunRecord}
    {lock : TurnActiveLockRecord} {limits : TurnAdmissionBucket → TurnAdmissionLimit}

theorem activeAdmissionCount_step (step : Step leaks before after) (bucket : TurnAdmissionBucket) :
    after.activeAdmissionCount bucket ≤ before.activeAdmissionCount bucket := by
  cases step with
  | rewrite _ books =>
    unfold activeAdmissionCount
    rw [books.admission]
    split
    · apply countValues_mono
      intro key counted
      rw [get_modify] at counted
      split at counted
      · -- The reservation at this key is a released one.
        rw [Option.any_map] at counted
        obtain ⟨_, _, passes⟩ := (Option.any_eq_true _ _).mp counted
        cases passes
      · exact counted
    · exact le_rfl
  | drop drops =>
    unfold activeAdmissionCount
    rw [drops.admission]
    exact Nat.le_of_add_right_le (countValues_remove _ _ _).le
  | shuffle _ _ after_eq =>
    rw [after_eq]
    exact le_rfl

theorem activeAdmissionCount_opens (opens : Opens opening before after record lock)
    (bucket : TurnAdmissionBucket) :
    after.activeAdmissionCount bucket ≤ before.activeAdmissionCount bucket +
      (record.canonicalReservation.buckets.contains bucket).toNat := by
  unfold activeAdmissionCount
  rw [opens.admission]
  have counted := countValues_insert before.admissionReservations record.runId
    record.canonicalReservation
    fun reservation => !reservation.released && reservation.buckets.contains bucket
  simp only [show record.canonicalReservation.released = false from rfl, Bool.not_false,
    Bool.true_and] at counted
  omega

def WithinLimits (limits : TurnAdmissionBucket → TurnAdmissionLimit) (roster : Roster) : Prop :=
  ∀ bucket maxActive, (limits bucket).maxActive = some maxActive →
    roster.activeAdmissionCount bucket ≤ maxActive

theorem WithinLimits.step (within : before.WithinLimits limits) (step : Step leaks before after) :
    after.WithinLimits limits := by
  intro bucket maxActive limited
  exact (activeAdmissionCount_step step bucket).trans (within bucket maxActive limited)

theorem WithinLimits.opens (within : before.WithinLimits limits)
    (opens : Opens opening before after record lock)
    (fixed : ∀ bucket limit, opening.limitFor bucket = .ok limit → limit = limits bucket) :
    after.WithinLimits limits := by
  intro bucket maxActive limited
  have grown := activeAdmissionCount_opens opens bucket
  cases mine : record.canonicalReservation.buckets.contains bucket with
  | false =>
    rw [mine, Bool.toNat_false] at grown
    exact grown.trans (within bucket maxActive limited)
  | true =>
    obtain ⟨limit, answered, below⟩ := opens.room bucket (List.contains_iff_mem.mp mine)
    rw [← fixed bucket limit answered] at limited
    rw [mine, Bool.toNat_true] at grown
    exact grown.trans (below maxActive limited)

end Roster

/-- The limit provider answers with the given limits or not at all. -/
def RestartOp.FixedLimits (limits : TurnAdmissionBucket → TurnAdmissionLimit) (_ : Inner) :
    RestartOp → Prop
  | .call op => ∀ opening bucket limit, op.opening = some opening →
      opening.limitFor bucket = .ok limit → limit = limits bucket
  | .restart _ _ => True

variable {env : StoreEnv}

theorem restartingStore.withinLimits
    {limits : TurnAdmissionBucket → TurnAdmissionLimit} {inner : Inner}
    (reached : (restartingStore env).Reachable (RestartOp.FixedLimits limits) inner) :
    inner.roster.WithinLimits limits := by
  refine (invariant (Roster.WithinLimits limits) ?_ ?_ ?_ reached).2
  · intro storeLimits bucket maxActive _
    exact Nat.zero_le maxActive
  · intro before _ _ _ within fixed move
    cases move with
    | opened opening given _ _ opens =>
      exact within.opens opens fun bucket limit => fixed opening bucket limit given
    | moved steps =>
      induction steps with
      | refl => exact within
      | tail _ last ih => exact ih.step last
  · intro before reloaded _ _ _ within _ _ loaded bucket maxActive limited
    have same : reloaded.roster.activeAdmissionCount bucket =
        before.roster.activeAdmissionCount bucket := by
      unfold Roster.activeAdmissionCount
      rw [show reloaded.roster.admissionReservations = before.roster.admissionReservations from
        loaded.admission]
    rw [same]
    exact within bucket maxActive limited

/-! ## Rejected calls -/

namespace Inner

variable {inner : Inner} {key : SubmitIdempotencyKey} {error : TurnError}

theorem SectionEnd.failed {commit? : Option Commit} {forks : Prop} {ended : SubmitResult × Inner}
    (ends : SectionEnd inner key commit? forks ended) (failed : ended.1 = some (.error error)) :
    ended.2.roster = inner.roster := by
  cases ends with
  | decided => rfl
  | passed => rfl
  | refused => exact roster_refuseSubmit _ _ _ _
  | accepted => cases failed

variable {context : CallContext}

theorem retryTurn_failed {request : RetryTurnRequest}
    (failed : (inner.retryTurn context request).1 = .error error) :
    (inner.retryTurn context request).2.roster = inner.roster := by
  revert failed
  dsimp only [retryTurn]
  split
  · exact fun _ => rfl
  · rw [roster_rememberRetryIdempotency]
    fun_cases inner.retryTurnOnce context request <;> rintro ⟨⟩ <;> rfl

end Inner

/-- The section answers its call with a rejected admission. -/
def StoreOp.RejectsAdmission (env : StoreEnv) (inner : Inner) : StoreOp → Prop
  | .submitAdmission context key receivedAt => ∃ rejection,
      (inner.submitAdmission context key receivedAt).1 =
        some (.error (.admissionRejected rejection))
  | .submitCommit context key request => ∃ rejection,
      (inner.submitCommit env context key request).1 = some (.error (.admissionRejected rejection))
  | .submitChildCommit context key request => ∃ rejection,
      (inner.submitChildCommit context key request).1 = some (.error (.admissionRejected rejection))
  | .retryTurn context request => ∃ rejection,
      (inner.retryTurn context request).1 = .error (.admissionRejected rejection)
  | _ => False

theorem StoreOp.roster_of_rejectsAdmission {inner : Inner} {op : StoreOp}
    (rejects : op.RejectsAdmission env inner) : (op.apply env inner).roster = inner.roster := by
  cases op with
  | submitAdmission context key receivedAt =>
    obtain ⟨rejection, failed⟩ := rejects
    exact (submitAdmission_ends inner key context receivedAt).failed failed
  | submitCommit context key request =>
    obtain ⟨rejection, failed⟩ := rejects
    exact (submitCommit_ends inner key env context request).failed failed
  | submitChildCommit context key request =>
    obtain ⟨_, failed⟩ := rejects
    exact (submitChildCommit_ends inner key context request).failed failed
  | retryTurn =>
    obtain ⟨_, failed⟩ := rejects
    exact retryTurn_failed failed
  | _ => cases rejects

/-! ## Whole runs -/

/-- Whether the run belongs to the bucket: by its tenant, its actor, its project or its agent,
and in the bucket of a class by its admission class. -/
def RunRecord.belongsTo (record : RunRecord) : TurnAdmissionBucket → Bool
  | ⟨axisKind, bucketKind, admissionClass, scope⟩ =>
    (match bucketKind with
      | .total => admissionClass = none
      | .admissionClass => admissionClass = some record.profile.admissionClass) &&
    match axisKind, scope with
    | .tenant, .tenant tenantId => record.scope.tenantId = tenantId
    | .actorUser, .actorUser tenantId userId =>
      record.scope.tenantId = tenantId ∧ record.actor.userId = userId
    | .project, .project tenantId projectId =>
      record.scope.tenantId = tenantId ∧ record.scope.projectId = projectId
    | .agent, .agent tenantId agentId =>
      record.scope.tenantId = tenantId ∧ record.scope.agentId = agentId
    | _, _ => false

theorem RunRecord.contains_canonicalReservation (record : RunRecord)
    (bucket : TurnAdmissionBucket) :
    record.canonicalReservation.buckets.contains bucket = record.belongsTo bucket := by
  obtain ⟨axisKind, bucketKind, admissionClass, scope⟩ := bucket
  cases axisKind <;> cases scope <;> cases bucketKind <;>
    simp [canonicalReservation, admissionBuckets, belongsTo, eq_comm]

namespace restartingStore

/-- Reservations follow the runs and are counted where the runs belong, fixed limits are kept,
rejected calls change nothing, and restarts bring the reservations back. -/
theorem admission_accounting (env : StoreEnv) {inner : Inner}
    (reached : (restartingStore env).Reachable System.anyStep inner) :
    (∀ runId, (∃ reservation, inner.admissionReservations.get runId = some reservation ∧
        reservation.released = false) ↔
      ∃ record, inner.records.get runId = some record ∧ record.status.isTerminal = false) ∧
    (∀ bucket, inner.activeAdmissionCount bucket = inner.records.countValues fun record =>
      !record.status.isTerminal && record.belongsTo bucket) ∧
    (∀ limits, (restartingStore env).Reachable (RestartOp.FixedLimits limits) inner →
      ∀ bucket maxActive, (limits bucket).maxActive = some maxActive →
        inner.activeAdmissionCount bucket ≤ maxActive) ∧
    (∀ op : StoreOp, op.RejectsAdmission env inner →
      (op.apply env inner).turns = inner.turns ∧ (op.apply env inner).records = inner.records ∧
        (op.apply env inner).admissionReservations = inner.admissionReservations) ∧
    ∀ limits order, order.Walks inner → ∃ reloaded, inner.reload limits order = .ok reloaded ∧
      reloaded.admissionReservations = inner.admissionReservations ∧
      ∀ bucket, reloaded.activeAdmissionCount bucket = inner.activeAdmissionCount bucket := by
  have sound := restartingStore.sound reached
  refine ⟨fun runId => ?_, fun bucket => ?_, ?_, ?_, ?_⟩
  · -- An unreleased reservation is there for the live runs and for no others.
    rw [show inner.admissionReservations.get runId = _ from sound.accounted runId]
    change _ ↔ ∃ record, inner.roster.records.get runId = _ ∧ _
    cases inner.roster.records.get runId with
    | none => simp
    | some => simp [RunRecord.reservation]
  · unfold activeAdmissionCount
    apply countValues_congr
    intro runId
    rw [show inner.admissionReservations.get runId = _ from sound.accounted runId, Option.any_map]
    simp only [← RunRecord.contains_canonicalReservation]
    rfl
  · intro limits fixed
    exact withinLimits fixed
  · intro op rejects
    have same := op.roster_of_rejectsAdmission rejects
    exact ⟨congrArg Roster.turns same, congrArg (fun roster => roster.records) same,
      congrArg Roster.admissionReservations same⟩
  · intro limits order walks
    obtain ⟨reloaded, loaded, facts⟩ := reload_of_sound sound walks limits
    refine ⟨reloaded, loaded, facts.admission, fun bucket => ?_⟩
    unfold activeAdmissionCount
    rw [facts.admission]

/-! ## A full bucket -/

open turnStore (sampleContext sampleEnv sampleRequest sampleScope)

/-- One run at a time in every bucket. -/
def cappedContext : CallContext := { sampleContext with limitFor := fun _ => .ok ⟨some 1, none⟩ }

def cappedSubmission : StoreOp :=
  .submitCommit cappedContext ⟨sampleScope .actorFallback, ⟨"first"⟩⟩
    (sampleRequest (sampleScope .actorFallback) "first")

/-- The same user submits under a second owner of the thread. -/
def secondSubmission : StoreOp :=
  .submitCommit { cappedContext with freshTurnId := ⟨2⟩, freshRunId := ⟨2⟩ }
    ⟨sampleScope (.explicitUser ⟨"owner"⟩), ⟨"second"⟩⟩
    (sampleRequest (sampleScope (.explicitUser ⟨"owner"⟩)) "second")

def cappedStore : Inner := cappedSubmission.apply sampleEnv (.withLimits .default)

def tenantBucket : TurnAdmissionBucket := ⟨.tenant, .total, none, .tenant ⟨"tenant"⟩⟩

theorem cappedStore_reachable {guard : Inner → RestartOp → Prop}
    (allowed : guard (.withLimits .default) (.call cappedSubmission)) :
    (restartingStore sampleEnv).Reachable guard cappedStore :=
  reachable_call (.start ⟨.default, rfl⟩) cappedSubmission trivial
    (fun _ _ _ _ => get_empty _) allowed

/-- The first run fills the bucket and the second submission is turned away. -/
theorem full_bucket_rejects : cappedStore.activeAdmissionCount tenantBucket = 1 ∧
      cappedStore.activeAdmissionCount tenantBucket ≤ 1 ∧
      (secondSubmission.apply turnStore.sampleEnv cappedStore).records = cappedStore.records := by
  have facts := admission_accounting sampleEnv
    (@cappedStore_reachable System.anyStep trivial)
  have fixed : (restartingStore sampleEnv).Reachable
      (RestartOp.FixedLimits fun _ => ⟨some 1, none⟩) cappedStore := by
    apply cappedStore_reachable
    intro _ _ _ given answered
    cases given
    cases answered
    rfl
  exact ⟨by decide, facts.2.2.1 _ fixed tenantBucket 1 rfl,
    (facts.2.2.2.1 secondSubmission ⟨_, rfl⟩).2.1⟩

end restartingStore

end Ironclaw.Turns
