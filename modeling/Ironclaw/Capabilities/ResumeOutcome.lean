import Ironclaw.Capabilities.ResumeFence

/-!
# What the resumed calls of one invocation achieve

Behind the fence one dispatch at most succeeds.  The record tells which call returned a
result if no other call that has read the blocked record is still under way when that call
completes it.  Both conditions are needed: the runs at the end of each section break them.
-/

namespace Ironclaw.Capabilities

open HostApi RunState Authorization Lib ResumeStore ResumeStage System CapabilityHost

/-! ## One approval, one effect -/

section

variable {ι : Type} [DecidableEq ι] (host : CapabilityHost) (requests : ι → ResumeRequest)
  {store : ResumeStore} {state : ResumeState ι}

/-- Of all calls for an invocation with one fingerprinted lease, one at most is dispatched
with success. -/
theorem one_approval_one_effect (durable : Bool) (one : store.leases.OneFingerprinted)
    (reached : (resumeSystem host requests store).Reachable (FencedStep requests durable) state) :
    state.effects.length ≤ 1 := by
  obtain ⟨_, oneLease⟩ := one.exists_sole
  exact (ResumeState.reachable_fenced oneLease reached).once

end

/-! ### Runs of one approved invocation -/

def sampleScope : ResourceScope where
  tenantId := ⟨"tenant"⟩
  userId := ⟨"user"⟩
  agentId := none
  projectId := none
  missionId := none
  threadId := none
  invocationId := ⟨1⟩

def sampleContext : ExecutionContext where
  invocationId := ⟨1⟩
  correlationId := ⟨1⟩
  tenantId := ⟨"tenant"⟩
  userId := ⟨"user"⟩
  authenticatedActorUserId := none
  agentId := none
  projectId := none
  missionId := none
  threadId := none
  extensionId := ⟨"mail"⟩
  mounts := ⟨[]⟩
  resourceScope := sampleScope

def sampleRequest (kind : ResumeKind) : ResumeRequest where
  kind
  context := sampleContext
  capabilityId := ⟨"mail.send"⟩
  estimate := ⟨"none"⟩
  input := ⟨"message"⟩

/-- A host with all its stores and one approved request. -/
def sampleHost : CapabilityHost where
  hasRunState := true
  hasApprovalRequests := true
  hasCapabilityLeases := true
  hasObligationHandler := false
  registry := fun _ => true
  forDispatch := fun _ _ _ _ => .ok ⟨"invocation"⟩
  approvals := fun _ => some
    { request :=
        { id := ⟨1⟩
          correlationId := ⟨1⟩
          requestedBy := .extension ⟨"mail"⟩
          action := .dispatch ⟨"mail.send"⟩ ⟨"none"⟩
          invocationFingerprint := some ⟨"invocation"⟩ }
      status := .approved }

/-- The invocation waits for its approval, which has been granted with one lease. -/
def sampleStore : ResumeStore where
  scope := sampleScope
  run := some
    { invocationId := ⟨1⟩
      capabilityId := ⟨"mail.send"⟩
      scope := sampleScope
      authenticatedActorUserId := none
      status := .blockedApproval
      approvalRequestId := some ⟨1⟩
      errorKind := none }
  leases :=
    { leases :=
        [{ grantId := ⟨1⟩
           capability := ⟨"mail.send"⟩
           expiresAt := none
           maxInvocations := some 1
           invocationFingerprint := some ⟨"invocation"⟩
           status := .active }]
      distinct := by decide }

theorem sampleStore_oneFingerprinted : sampleStore.leases.OneFingerprinted := by
  simp [LeaseTable.OneFingerprinted, sampleStore]

/-- Everything is allowed and the dispatch answers as given. -/
def answering (dispatched : Except DispatchError CapabilityDispatchResult) : ResumeAnswer where
  now := 0
  runStateFault := none
  leaseFault := none
  hiddenLeases := []
  decision := .allow []
  prepared := .ok ()
  dispatched
  completed := .ok ⟨⟨"sent"⟩⟩

def takes {ι : Type} (caller : ι) (steps : Nat) (answer : ResumeAnswer) : List (ι × ResumeAnswer) :=
  List.replicate steps (caller, answer)

def sending : ResumeAnswer := answering (.ok ⟨⟨"sent"⟩⟩)

def askingForAuthentication : ResumeAnswer := answering (.error (.authRequired ⟨"mail.send"⟩ [] []))

def sampleRun {ι : Type} [DecidableEq ι] (requests : ι → ResumeRequest)
    (labels : List (ι × ResumeAnswer)) : ResumeState ι :=
  labels.foldl (ResumeState.step sampleHost requests) (.initial sampleStore)

theorem sampleRun_reachable {ι : Type} [DecidableEq ι] {requests : ι → ResumeRequest}
    {guard : ResumeState ι → ι × ResumeAnswer → Prop} {labels : List (ι × ResumeAnswer)}
    (allowed : System.AllowedAlong guard (ResumeState.step sampleHost requests)
      (.initial sampleStore) labels) :
    (resumeSystem sampleHost requests sampleStore).Reachable guard (sampleRun requests labels) := by
  have start : (resumeSystem sampleHost requests sampleStore).Reachable guard
      (.initial sampleStore) := .start rfl
  exact start.followAllowed labels allowed

/-- The first call is `resume_json`, the others are `auth_resume_json` with the approval. -/
def resumeThenAuthResume (calls : Nat) (call : Fin calls) : ResumeRequest :=
  if call.val = 0 then sampleRequest (.resume ⟨1⟩)
  else sampleRequest (.authResume (some ⟨1⟩))

/-- `resume_json` is sent back for authentication and cleans up, then `auth_resume_json`
dispatches. -/
def bounceThenSend : List (Fin 2 × ResumeAnswer) :=
  takes 0 9 askingForAuthentication ++ takes 1 11 sending

theorem bounceThenSend_one_effect :
    (sampleRun (resumeThenAuthResume 2) bounceThenSend).effects = [1] ∧
      (sampleRun (resumeThenAuthResume 2) bounceThenSend).effects.length ≤ 1 := by
  have reached : (resumeSystem sampleHost (resumeThenAuthResume 2) sampleStore).Reachable
      (FencedStep (resumeThenAuthResume 2) true)
      (sampleRun (resumeThenAuthResume 2) bounceThenSend) := sampleRun_reachable (by decide)
  exact ⟨by decide, one_approval_one_effect _ _ _ sampleStore_oneFingerprinted reached⟩

/-- The cleanup of `resume_json` comes late: it takes the lease from an `auth_resume_json`
call that has moved it to dispatching, and a second such call gets it too. -/
def lateAbort : List (Fin 3 × ResumeAnswer) :=
  takes 0 8 askingForAuthentication ++ takes 1 5 sending ++ takes 0 1 askingForAuthentication ++
    takes 2 5 sending ++ takes 1 6 sending ++ takes 2 6 sending

theorem late_abort_lets_two_dispatches_succeed :
    (resumeSystem sampleHost (resumeThenAuthResume 3) sampleStore).Reachable anyStep
        (sampleRun (resumeThenAuthResume 3) lateAbort) ∧
      sampleStore.leases.OneFingerprinted ∧
      (sampleRun (resumeThenAuthResume 3) lateAbort).effects = [1, 2] :=
  ⟨sampleRun_reachable (allowedAlong_anyStep _ _ _), sampleStore_oneFingerprinted, by decide⟩

/-! ## The record tells the outcome -/

namespace ResumeStage

/-- The next operation writes that the invocation is completed. -/
def completes : ResumeStage → Bool
  | .completeRun _ => true
  | _ => false

/-- The call has not read the record yet, or is done with it. -/
def isClear : ResumeStage → Bool
  | .start | .abortLease _ _ | .revokeLease _ _ | .returned _ => true
  | _ => false

def isResult : ResumeStage → Bool
  | .returned (.ok _) => true
  | _ => false

end ResumeStage

section

variable {ι : Type} [DecidableEq ι]

/-- The steps under which the record tells the outcome: the write that completes it succeeds,
and by then every other call that has read the blocked record is done with it. -/
def RecordedStep (state : ResumeState ι) (label : ι × ResumeAnswer) : Prop :=
  (state.stages label.1).completes = true →
    label.2.runStateFault = none ∧ ∀ other, other ≠ label.1 → (state.stages other).isClear = true

instance [Fintype ι] (state : ResumeState ι) (label : ι × ResumeAnswer) :
    Decidable (RecordedStep state label) :=
  inferInstanceAs (Decidable (_ → _))

variable {host : CapabilityHost} {requests : ι → ResumeRequest} {store after : ResumeStore}
  {state : ResumeState ι} {stage next : ResumeStage} {request : ResumeRequest}
  {answer : ResumeAnswer}

theorem ResumeStore.tryLease_run (op : LeaseOp) (grantId : CapabilityGrantId) :
    (store.tryLease answer op grantId).run = store.run := by
  rcases tryLease_cases rfl with same | ⟨_, _, same⟩
  · rw [same]
  · rw [same]

theorem ResumeStore.writeRun_isSome (update : RunRecord → RunRecord) :
    (store.writeRun answer update).run.isSome = store.run.isSome := by
  rcases writeRun_cases rfl with ⟨_, same⟩ | same
  · rw [same]
  · rw [same]
    simp

/-! ### Which steps return a result -/

namespace ResumeStage

theorem isClear_of_isResult (result : stage.isResult = true) : stage.isClear = true := by
  cases stage <;> first | rfl | cases result

theorem not_completes_of_isClear (clear : stage.isClear = true) : stage.completes = false := by
  cases stage <;> first | rfl | cases clear

theorem Refuses.not_result (refuses : stage.Refuses) : stage.isResult = false := by
  rcases refuses with ⟨_, rfl⟩ | ⟨_, _, rfl⟩ <;> rfl

theorem revokeThenReject_not_result (toRevoke : Option CapabilityGrantId)
    (error : CapabilityInvocationError) : (revokeThenReject toRevoke error).isResult = false := by
  cases toRevoke <;> rfl

end ResumeStage

namespace CapabilityHost

/-- A step keeps the record, and only a completing one returns a new result. -/
def Outcome (store after : ResumeStore) (stage next : ResumeStage) : Prop :=
  after.run.isSome = store.run.isSome ∧
    (next.isResult = true → stage.isResult = true ∨ stage.completes = true)

theorem Outcome.quiet (same : after.run.isSome = store.run.isSome)
    (noResult : next.isResult = false) : Outcome store after stage next :=
  ⟨same, fun isResult => absurd isResult (by simp [noResult])⟩

theorem Outcome.claim {op : LeaseOp} {grantId : CapabilityGrantId} {won : ResumeStage}
    (noResult : won.isResult = false) (claimed : (match store.runLease answer op grantId with
      | .ok changed => (changed, won)
      | .error error => (store, claimLost error)) = (after, next)) :
    Outcome store after stage next := by
  split at claimed
  next ran =>
    obtain ⟨_, _, rfl⟩ := runLease_ok ran
    cases claimed
    exact .quiet rfl noResult
  · cases claimed
    exact .quiet rfl (claimLost_refuses _).not_result

theorem advance_outcome (advanced : host.advance request answer store stage = (after, next)) :
    Outcome store after stage next := by
  obtain ⟨rfl, rfl⟩ := Prod.ext_iff.mp advanced
  cases stage with
  | start =>
    refine .quiet rfl ?_
    rw [advance]
    cases request.kind with
    | resume approvalRequestId =>
      dsimp only
      fun_cases host.resumeStart request answer approvalRequestId store <;> rfl
    | authResume approvalRequestId =>
      dsimp only
      fun_cases host.authResumeStart request answer approvalRequestId store <;> rfl
  | readApproval approvalRequestId fingerprint =>
    refine .quiet rfl ?_
    dsimp only [advance]
    fun_cases host.checkApproval request answer approvalRequestId fingerprint <;> rfl
  | findActive =>
    refine .quiet rfl ?_
    rw [advance, lookForActive]
    split <;> rfl
  | findClaimed =>
    refine .quiet rfl ?_
    rw [advance, lookForClaimed]
    split <;> rfl
  | claimFresh | beginDispatch | claimPending => exact .claim rfl advanced
  | authorize lease =>
    refine .quiet rfl ?_
    dsimp only [advance]
    fun_cases authorizeResumed request answer lease <;> rfl
  | prepare claimed obligations | dispatch claimed obligations =>
    simp only [advance]
    split
    · exact .quiet rfl rfl
    · refine .quiet rfl ?_
      unfold afterError
      split
      · rfl
      · rfl
      · exact revokeThenReject_not_result claimed _
  | completeObligations claimed =>
    simp only [advance]
    split
    · split <;> exact .quiet rfl rfl
    · exact .quiet rfl rfl
  | consume grantId => exact .quiet (congrArg _ (tryLease_run .consume grantId)) rfl
  | completeRun => exact ⟨writeRun_isSome _, fun _ => .inr rfl⟩
  | failRun _ toRevoke error =>
    exact .quiet (writeRun_isSome _) (revokeThenReject_not_result toRevoke error)
  | blockAuth _ claimed error =>
    refine .quiet (writeRun_isSome _) ?_
    cases claimed <;> rfl
  | abortLease grantId =>
    exact .quiet (congrArg _ (tryLease_run .abortDispatchClaimed grantId)) rfl
  | revokeLease grantId => exact .quiet (congrArg _ (tryLease_run .revoke grantId)) rfl
  | returned => exact ⟨rfl, .inl⟩

theorem advance_start (completed : store.run.map (·.status) = some .completed) :
    ∃ error, (host.advance request answer store .start).2 = .reject error := by
  rw [advance]
  cases request.kind with
  | resume approvalRequestId =>
    refine (resumeStart_cases rfl).resolve_right fun started => ?_
    cases completed.symm.trans started.1
  | authResume approvalRequestId =>
    refine (authResumeStart_cases rfl).resolve_right fun started => ?_
    cases completed.symm.trans started.1

/-- Over a completed record a call that is clear of it stays so and leaves it as it is. -/
theorem advance_clear (clear : stage.isClear = true)
    (completed : store.run.map (·.status) = some .completed)
    (advanced : host.advance request answer store stage = (after, next)) :
    after.run = store.run ∧ next.isClear = true := by
  obtain ⟨rfl, rfl⟩ := Prod.ext_iff.mp advanced
  cases stage with
  | start =>
    obtain ⟨_, rejected⟩ : ∃ error, (host.advance request answer store .start).2 = .reject error :=
      advance_start completed
    exact ⟨rfl, by rw [rejected]; rfl⟩
  | abortLease grantId => exact ⟨tryLease_run .abortDispatchClaimed grantId, rfl⟩
  | revokeLease grantId => exact ⟨tryLease_run .revoke grantId, rfl⟩
  | returned => exact ⟨rfl, rfl⟩
  | _ => cases clear

end CapabilityHost

/-! ### Runs -/

/-- The record exists.  Once a call has returned a result it is completed, and every other call
is clear of it and has no result. -/
structure ResumeState.Recorded (state : ResumeState ι) : Prop where
  present : state.store.run.isSome = true
  told : ∀ winner, (state.stages winner).isResult = true →
    state.store.run.map (·.status) = some .completed ∧ ∀ other, other ≠ winner →
      (state.stages other).isClear = true ∧ (state.stages other).isResult = false

theorem ResumeState.Recorded.step {label : ι × ResumeAnswer} (recorded : state.Recorded)
    (allowed : RecordedStep state label) : (state.step host requests label).Recorded := by
  obtain ⟨caller, answer⟩ := label
  cases advanced : host.advance (requests caller) answer state.store (state.stages caller) with
  | mk after next =>
  obtain ⟨kept, result⟩ := advance_outcome advanced
  have newStore : (state.step host requests (caller, answer)).store = after := by
    simp [ResumeState.step, advanced]
  have here : (state.step host requests (caller, answer)).stages caller = next := by
    simp [ResumeState.step, advanced]
  have elsewhere : ∀ call, call ≠ caller →
      (state.step host requests (caller, answer)).stages call = state.stages call :=
    fun call apart => Function.update_of_ne apart _ _
  refine ⟨by rw [newStore, kept]; exact recorded.present, fun winner isResult => ?_⟩
  rw [newStore]
  by_cases mine : winner = caller
  · subst mine
    rw [here] at isResult
    rcases result isResult with returned | completing
    · obtain ⟨completed, others⟩ := recorded.told winner returned
      obtain ⟨same, _⟩ := advance_clear (isClear_of_isResult returned) completed advanced
      exact ⟨same ▸ completed, fun other apart => elsewhere other apart ▸ others other apart⟩
    · obtain ⟨written, clear⟩ := allowed completing
      refine ⟨?_, fun other apart => ?_⟩
      · obtain ⟨record, found⟩ := Option.isSome_iff_exists.mp recorded.present
        cases stage : state.stages winner <;> rw [stage] at completing <;> cases completing
        rw [stage] at advanced
        cases advanced
        rw [writeRun, written, found]
        rfl
      · rw [elsewhere other apart]
        refine ⟨clear other apart, Bool.eq_false_iff.mpr fun also => ?_⟩
        -- Beside an earlier result this call would be clear of the record.
        have done := ((recorded.told other also).2 winner apart.symm).1
        simp [not_completes_of_isClear done] at completing
  · rw [elsewhere winner mine] at isResult
    obtain ⟨completed, others⟩ := recorded.told winner isResult
    obtain ⟨clear, noResult⟩ := others caller (Ne.symm mine)
    obtain ⟨same, stays⟩ := advance_clear clear completed advanced
    refine ⟨same ▸ completed, fun other apart => ?_⟩
    by_cases moved : other = caller
    · subst moved
      rw [here]
      refine ⟨stays, Bool.eq_false_iff.mpr fun isNew => ?_⟩
      simpa [noResult, not_completes_of_isClear clear] using result isNew
    · rw [elsewhere other moved]
      exact others other apart

variable (host requests)

/-- One call at most returns a result, and if one has, the record says completed. -/
theorem run_record_tells_outcome (present : store.run.isSome = true)
    (reached : (resumeSystem host requests store).Reachable RecordedStep state) :
    (∀ first second firstResult secondResult, state.stages first = .returned (.ok firstResult) →
        state.stages second = .returned (.ok secondResult) → first = second) ∧
      ∀ call result, state.stages call = .returned (.ok result) →
        state.store.run.map (·.status) = some .completed := by
  have recorded : state.Recorded := by
    refine reached.invariant ResumeState.Recorded ?_ ?_
    · rintro _ rfl
      exact ⟨present, nofun⟩
    · rintro before _ _ recorded allowed rfl
      exact recorded.step allowed
  refine ⟨fun first second _ _ firstReturned secondReturned => ?_, fun call _ returned => ?_⟩
  · by_contra apart
    have alone := (recorded.told second (by rw [secondReturned]; rfl)).2 first apart
    rw [firstReturned] at alone
    cases alone.2
  · exact (recorded.told call (by rw [returned]; rfl)).1

end

/-- The call that bounced has returned when the second completes the record, and a third one
starts only then. -/
theorem bounceThenSend_recorded :
    let state := sampleRun (resumeThenAuthResume 3)
      (takes 0 9 askingForAuthentication ++ takes 1 11 sending ++ takes 2 1 sending)
    (state.stages 1).isResult = true ∧
      state.stages 2 = .returned (.error (.resumeNotBlocked ⟨"mail.send"⟩ .completed)) ∧
      state.store.run.map (·.status) = some .completed := by
  have reached : (resumeSystem sampleHost (resumeThenAuthResume 3) sampleStore).Reachable
      RecordedStep (sampleRun (resumeThenAuthResume 3)
        (takes 0 9 askingForAuthentication ++ takes 1 11 sending ++ takes 2 1 sending)) :=
    sampleRun_reachable (by decide)
  refine ⟨by decide, rfl, ?_⟩
  exact (run_record_tells_outcome _ _ rfl reached).2 1 ⟨⟨"sent"⟩⟩ rfl

def twoResumes : Fin 2 → ResumeRequest := fun _ => sampleRequest (.resume ⟨1⟩)

/-- Two calls of `resume_json`: both read the blocked record, one completes it, and the
other finds no lease and marks the run failed. -/
def lateFailure : List (Fin 2 × ResumeAnswer) :=
  takes 1 1 sending ++ takes 0 10 sending ++ takes 1 3 sending

/-- The late failure overwrites the completed record, and behind the late abort two calls
return a result. -/
theorem late_failure_overwrites_completed_record :
    ((∀ label ∈ lateFailure, label.2.runStateFault = none) ∧
      (resumeSystem sampleHost twoResumes sampleStore).Reachable anyStep
        (sampleRun twoResumes lateFailure) ∧
      (sampleRun twoResumes lateFailure).stages 0 = .returned (.ok ⟨⟨"sent"⟩⟩) ∧
      (sampleRun twoResumes lateFailure).stages 1 =
        .returned (.error (.approvalLeaseMissing ⟨"mail.send"⟩)) ∧
      (sampleRun twoResumes lateFailure).store.run.map (·.status) = some .failed) ∧
    (∀ label ∈ lateAbort, label.2.runStateFault = none) ∧
      (sampleRun (resumeThenAuthResume 3) lateAbort).stages 1 = .returned (.ok ⟨⟨"sent"⟩⟩) ∧
      (sampleRun (resumeThenAuthResume 3) lateAbort).stages 2 = .returned (.ok ⟨⟨"sent"⟩⟩) :=
  ⟨⟨by decide, sampleRun_reachable (allowedAlong_anyStep _ _ _), rfl, rfl, by decide⟩,
    by decide, rfl, rfl⟩

end Ironclaw.Capabilities
