import Ironclaw.Turns.RunEnds
import Ironclaw.Turns.Sections

/-!
# What the operations leave alone

The limits of a store never change, the counts of its spawn trees change only in the
operations that reserve and release, no operation leaves more ended runs queued than
the limit allows, and the replay memory changes only where an outcome is remembered.
-/

namespace Ironclaw.Turns

open Lib

variable {before after inner : Inner}

namespace Inner

/-- The queue of ended runs is within its limit, so pruning has nothing to do. -/
def Settled (inner : Inner) : Prop := inner.terminalRuns.length ≤ inner.limits.maxTerminalRecords

/-- The limits and the spawn-tree counts stay. -/
structure Frame (before after : Inner) : Prop where
  limits : after.limits = before.limits
  trees : after.treeReservations = before.treeReservations

/-- A frame that also leaves the queue of ended runs within its limit. -/
structure Rests (before after : Inner) : Prop extends Frame before after where
  settled : before.Settled → after.Settled

variable {middle : Inner}

theorem Frame.trans (first : Frame before middle)
    (last : Frame middle after) : Frame before after :=
  ⟨last.limits.trans first.limits, last.trees.trans first.trees⟩

namespace Rests

theorem refl (inner : Inner) : Rests inner inner := ⟨⟨rfl, rfl⟩, id⟩

theorem trans (first : Rests before middle) (last : Rests middle after) : Rests before after :=
  ⟨first.toFrame.trans last.toFrame, fun settled => last.settled (first.settled settled)⟩

theorem of_same (limits : after.limits = before.limits)
    (trees : after.treeReservations = before.treeReservations)
    (queue : after.terminalRuns = before.terminalRuns) : Rests before after :=
  ⟨⟨limits, trees⟩, by unfold Settled; rw [limits, queue]; exact id⟩

end Rests

/-- The replay memory stays as well. -/
structure Quiet (before after : Inner) : Prop extends Rests before after where
  memory : after.memory = before.memory

namespace Quiet

theorem refl (inner : Inner) : Quiet inner inner := ⟨.refl inner, rfl⟩

theorem trans (first : Quiet before middle) (last : Quiet middle after) : Quiet before after :=
  ⟨first.toRests.trans last.toRests, last.memory.trans first.memory⟩

theorem of_same (limits : after.limits = before.limits)
    (trees : after.treeReservations = before.treeReservations)
    (queue : after.terminalRuns = before.terminalRuns) (memory : after.memory = before.memory) :
    Quiet before after :=
  ⟨.of_same limits trees queue, memory⟩

end Quiet

/-! ## Pruning -/

theorem pruneTerminalQueue_settled (queue : List TurnRunId) (inner : Inner)
    (pending : inner.terminalRuns = queue) : (pruneTerminalQueue queue inner).Settled := by
  induction queue generalizing inner with
  | nil => simp [pruneTerminalQueue, Settled, pending]
  | cons _ _ ih =>
    unfold pruneTerminalQueue
    split
    · refine ih _ ?_
      unfold pruneTerminalRecord
      split <;> rfl
    next fits =>
      rw [Settled, pending]
      exact Nat.not_lt.mp fits

theorem pruneTerminalRecords_frame (inner : Inner) :
    Frame inner inner.pruneTerminalRecords ∧ inner.pruneTerminalRecords.memory = inner.memory := by
  obtain ⟨_, _, _, _, pruned⟩ := inner.pruneTerminalRecords_eq
  rw [pruned]
  exact ⟨⟨rfl, rfl⟩, rfl⟩

theorem pruneTerminalRecords_of_settled (settled : inner.Settled) :
    inner.pruneTerminalRecords = inner := by
  unfold pruneTerminalRecords
  unfold Settled at settled
  cases pending : inner.terminalRuns with
  | nil => rfl
  | cons =>
    rw [pending] at settled
    unfold pruneTerminalQueue
    exact if_neg (Nat.not_lt.mpr settled)

theorem Quiet.pruned (frame : Frame before after)
    (memory : after.memory = before.memory) : Quiet before after.pruneTerminalRecords := by
  obtain ⟨pruned, same⟩ := after.pruneTerminalRecords_frame
  exact ⟨⟨frame.trans pruned, fun _ => pruneTerminalQueue_settled _ _ rfl⟩, same.trans memory⟩

/-! ## Runner transitions -/

variable {runId : TurnRunId} (now : TurnTimestamp) (context : CallContext)
    (request : RetryTurnRequest)

theorem RunEnd.quiet {parks : Prop} {why : RunRecord → Prop} {answer : Option TurnRunState}
    (ends : RunEnd inner runId parks why answer after) : Quiet inner after := by
  induction ends with
  | absent => exact .refl _
  | restored => exact .of_same rfl rfl rfl rfl
  | kept written => exact .of_same written.limits written.trees written.ended written.memory
  | parked _ moved
  | asked moved | queued moved => exact .of_same moved.limits moved.trees moved.ended moved.memory
  | closed ends => exact .pruned ⟨ends.limits, ends.trees⟩ ends.memory
  | pruned _ ih => exact .pruned ih.toFrame ih.memory

section

variable (env : StoreEnv) (now : TurnTimestamp) (inner : Inner)

theorem claimMatchingQueuedRun_quiet (request : ClaimRunRequest) :
    Quiet inner (inner.claimMatchingQueuedRun env now request).2 := by
  obtain ⟨_, popped⟩ := popMatchingQueuedRunLoop_eq request.scopeFilter
    inner.queuedRuns.length inner
  unfold claimMatchingQueuedRun popMatchingQueuedRun
  generalize popMatchingQueuedRunLoop request.scopeFilter inner.queuedRuns.length inner = scan
    at popped
  obtain ⟨runId?, _⟩ := scan
  subst popped
  cases runId? with
  | none => exact .of_same rfl rfl rfl rfl
  | some =>
    dsimp only
    split <;> exact .of_same rfl rfl rfl rfl

theorem recoverExpiredRuns_frame (expired : List TurnRunId) :
    Frame inner (recoverExpiredRuns now expired inner).2 ∧
      (recoverExpiredRuns now expired inner).2.memory = inner.memory := by
  induction expired generalizing inner with
  | nil => exact ⟨⟨rfl, rfl⟩, rfl⟩
  | cons runId _ ih =>
    have first : Frame inner (inner.recoverExpiredRun now runId).2 ∧
        (inner.recoverExpiredRun now runId).2.memory = inner.memory := by
      unfold recoverExpiredRun
      split <;> exact ⟨⟨rfl, rfl⟩, rfl⟩
    exact ⟨first.1.trans (ih _).1, (ih _).2.trans first.2⟩

end

/-! ## Store operations -/

theorem rememberRetryIdempotency_rests (inner : Inner) (key : RunIdempotencyKey)
    (result : Except TurnError RetryTurnResponse) (createdAt : TurnTimestamp) :
    Rests inner (inner.rememberRetryIdempotency key result createdAt) := by
  unfold rememberRetryIdempotency
  split <;> exact .of_same rfl rfl rfl

theorem resumeTurn_rests (request : ResumeTurnRequest) (inner : Inner) :
    Rests inner (inner.resumeTurn now request).2 := by
  unfold resumeTurn
  dsimp only
  split
  · exact .refl _
  · have ends := @resumeTurnOnce_ends inner now False (fun _ => False) request
    generalize inner.resumeTurnOnce now request = result at ends ⊢
    exact ends.quiet.toRests.trans (.of_same rfl rfl rfl)

theorem requestCancel_rests (request : CancelRunRequest) (inner : Inner) :
    Rests inner (inner.requestCancel now request).2 := by
  unfold requestCancel
  dsimp only
  split
  · exact .refl _
  · obtain ⟨_, ends⟩ := @requestCancelOnce_ends inner now False request
    generalize inner.requestCancelOnce now request = result at ends ⊢
    exact ends.quiet.toRests.trans (.of_same rfl rfl rfl)

theorem refuseSubmit_rests (inner : Inner) (key : SubmitIdempotencyKey) (error : TurnError)
    (createdAt : TurnTimestamp) : Rests inner (inner.refuseSubmit key error createdAt).2 := by
  unfold refuseSubmit
  split <;> exact .of_same rfl rfl rfl

theorem reserveAdmission_quiet {reserved : Inner} {admissionClass : TurnAdmissionClass}
    {scope : TurnScope} {actor : TurnActor}
    {limitFor : TurnAdmissionBucket → Except Unit TurnAdmissionLimit}
    (admitted : inner.reserveAdmission runId admissionClass scope actor limitFor = .ok reserved) :
    Quiet inner reserved := by
  unfold reserveAdmission at admitted
  dsimp only at admitted
  split at admitted
  · cases admitted
  · cases admitted
    exact .of_same rfl rfl rfl rfl

theorem claimSubmitIdempotency_quiet (inner : Inner) (key : SubmitIdempotencyKey) :
    Quiet inner (inner.claimSubmitIdempotency key).2 := by
  unfold claimSubmitIdempotency
  split
  · exact .refl _
  · split <;> exact .of_same rfl rfl rfl rfl

theorem acceptSubmit_rests (reserved : Inner) (context : CallContext) (key : SubmitIdempotencyKey)
    (request : SubmitTurnRequest) (runId : TurnRunId) (profile : TurnRunProfile)
    (route : Option LoopModelRouteSnapshot) :
    Rests reserved (reserved.acceptSubmit context key request runId profile route).2 :=
  .of_same rfl rfl rfl

theorem SectionEnd.rests {key : SubmitIdempotencyKey} {commit? : Option Commit}
    {ended : SubmitResult × Inner} (ends : SectionEnd inner key commit? False ended) :
    Rests inner ended.2 := by
  cases ends with
  | decided => exact .of_same rfl rfl rfl
  | passed => exact .refl _
  | refused _ kept _ error receivedAt =>
    obtain rfl := kept.resolve_left id
    exact refuseSubmit_rests inner key error receivedAt
  | accepted _ kept _ _ _ _ admitted =>
    obtain rfl := kept.resolve_left id
    exact (@reserveAdmission_quiet inner _ _ _ _ _ _ admitted).toRests.trans
      (acceptSubmit_rests _ _ _ _ _ _ _)

theorem retryTurnOnce_quiet (inner : Inner) :
    Quiet inner (inner.retryTurnOnce context request).2 := by
  unfold retryTurnOnce
  iterate 3
    split
    · exact .refl _
  rename_i admitted
  exact (reserveAdmission_quiet admitted).trans (.of_same rfl rfl rfl rfl)

theorem retryTurn_rests (inner : Inner) : Rests inner (inner.retryTurn context request).2 := by
  unfold retryTurn
  dsimp only
  split
  · exact .refl _
  · exact (retryTurnOnce_quiet context request inner).toRests.trans
      (rememberRetryIdempotency_rests _ _ _ _)

end Inner

open Turns.Inner

/-- The steps that write spawn-tree counts. -/
def StoreOp.WritesTrees : StoreOp → Prop
  | .submitChildCommit _ _ _ | .reserveTreeDescendants _ _ _ _ | .releaseTreeDescendants _ _ _ _
  | .pruneReleasedChild _ _ _ => True
  | _ => False

/-- The steps that may remember an outcome. -/
def StoreOp.Remembers : StoreOp → Prop
  | .refuseLineage _ _ | .submitAdmission _ _ _ | .submitCommit _ _ _ | .submitChildLineage _ _
  | .submitChildCommit _ _ _ | .resumeTurn _ _ | .retryTurn _ _ | .requestCancel _ _ => True
  | _ => False

variable (env : StoreEnv)

theorem StoreOp.apply_quiet (inner : Inner) {op : StoreOp}
    (trees : ¬ op.WritesTrees) (remembers : ¬ op.Remembers) : Quiet inner (op.apply env inner) := by
  by_cases about : op.AboutRun
  · obtain ⟨_, _, _, _, ends⟩ := apply_ends env inner about
    exact ends.quiet
  cases op with
  | submitChildCommit | reserveTreeDescendants | releaseTreeDescendants | pruneReleasedChild =>
    exact absurd trivial trees
  | refuseLineage | submitAdmission | submitCommit | submitChildLineage | resumeTurn | retryTurn
  | requestCancel => exact absurd trivial remembers
  | claimSubmit => exact claimSubmitIdempotency_quiet inner _
  | claimNextRun => exact claimMatchingQueuedRun_quiet env _ inner _
  | claimNextRuns request fresh =>
    exact claimNextRunsLoop_keeps (motive := Quiet inner) (fun now request middle quiet =>
      quiet.trans (claimMatchingQueuedRun_quiet env now middle request)) request fresh
      request.maxRuns [] (.refl inner)
  | recoverExpiredLeases =>
    obtain ⟨frame, memory⟩ := recoverExpiredRuns_frame _ inner _
    exact .pruned frame memory
  | dropInFlight | putLoopCheckpoint => exact .of_same rfl rfl rfl rfl
  | _ => exact absurd trivial about

theorem StoreOp.apply_rests (inner : Inner) {op : StoreOp}
    (other : ¬ op.WritesTrees) : Rests inner (op.apply env inner) := by
  by_cases remembers : op.Remembers
  · cases op with
    | refuseLineage => exact (refuseLineage_ends inner _ _).rests
    | submitAdmission => exact (submitAdmission_ends inner ..).rests
    | submitCommit => exact (submitCommit_ends inner _ env _ _).rests
    | submitChildLineage => exact (submitChildLineage_ends inner _ _).rests
    | resumeTurn => exact resumeTurn_rests _ _ inner
    | retryTurn => exact retryTurn_rests _ _ inner
    | requestCancel => exact requestCancel_rests _ _ inner
    | submitChildCommit => exact absurd trivial other
    | _ => cases remembers
  · exact (op.apply_quiet env inner other remembers).toRests

/-! ## Roots of empty trees -/

namespace Inner

theorem retireEmptyRoot_quiet (rootRunId : TurnRunId) (inner : Inner) :
    Quiet inner (inner.retireEmptyRoot rootRunId) := by
  unfold retireEmptyRoot
  split
  · split
    · exact .of_same rfl rfl rfl rfl
    · exact .pruned ⟨rfl, rfl⟩ rfl
  · exact .refl _

/-! ## The queue of ended runs stays within its limit -/

/-- The limits stay, and the queue of ended runs stays within its limit. -/
structure Lasts (before after : Inner) : Prop where
  limits : after.limits = before.limits
  settled : before.Settled → after.Settled

theorem Lasts.trans {middle after : Inner} (first : Lasts inner middle)
    (last : Lasts middle after) : Lasts inner after :=
  ⟨last.limits.trans first.limits, fun settled => last.settled (first.settled settled)⟩

theorem Rests.lasts {after : Inner} (rests : Rests inner after) : Lasts inner after :=
  ⟨rests.limits, rests.settled⟩

theorem TreeWrite.lasts {after : Inner} {empties : Prop} (writes : TreeWrite inner empties after) :
    Lasts inner after := by
  cases writes with
  | same | stored key => exact ⟨rfl, id⟩
  | emptied key rootRunId =>
    have quiet := retireEmptyRoot_quiet rootRunId (inner.removeTreeState key)
    exact ⟨quiet.limits, quiet.settled⟩

theorem TreeWrite.memory {after : Inner} {empties : Prop} (writes : TreeWrite inner empties after) :
    after.memory = inner.memory := by
  cases writes with
  | same => rfl
  | stored => rfl
  | emptied _ rootRunId => exact (retireEmptyRoot_quiet rootRunId _).memory

theorem SectionEnd.lasts {key : SubmitIdempotencyKey} {commit? : Option Commit} {forks : Prop}
    {ended : SubmitResult × Inner} (ends : SectionEnd inner key commit? forks ended) :
    Lasts inner ended.2 := by
  cases ends with
  | decided | passed => exact ⟨rfl, id⟩
  | refused trees _ _ error receivedAt =>
    have refused := (refuseSubmit_rests (inner.withTrees trees) key error receivedAt).lasts
    exact ⟨refused.limits, refused.settled⟩
  | accepted _ _ _ _ _ _ admitted =>
    have reserved := (reserveAdmission_quiet admitted).toRests.lasts
    exact Lasts.trans ⟨reserved.limits, reserved.settled⟩
      (acceptSubmit_rests _ _ _ _ _ _ _).lasts

end Inner

theorem StoreOp.apply_lasts (inner : Inner) (op : StoreOp) : Lasts inner (op.apply env inner) := by
  by_cases writes : op.WritesTrees
  · cases op with
    | submitChildCommit => exact (submitChildCommit_ends inner ..).lasts
    | reserveTreeDescendants => exact (reserveTreeDescendants_treeWrite _ _ _ _ inner).lasts
    | releaseTreeDescendants => exact (releaseTreeDescendants_treeWrite _ _ _ _ inner).lasts
    | pruneReleasedChild => exact (pruneReleasedChild_treeWrite _ _ _ inner).lasts
    | _ => cases writes
  · exact (op.apply_rests env inner writes).lasts

theorem turnStore.settled {env : StoreEnv} {guard : Inner → StoreOp → Prop}
    (reached : (turnStore env).Reachable guard inner) : inner.Settled := by
  refine reached.invariant Inner.Settled ?_ ?_
  · rintro _ ⟨_, rfl⟩
    exact Nat.zero_le _
  · rintro before op _ settled _ ⟨_, rfl⟩
    exact (op.apply_lasts env before).settled settled

end Ironclaw.Turns
