import Mathlib.Data.Fintype.EquivFin
import Ironclaw.Capabilities.Fence
import Ironclaw.Capabilities.Resume
import Ironclaw.Lib.Fallible

/-!
# Resumed calls stay behind the fence

The interleaved calls of `resume_json` and `auth_resume_json` are moves of the fence:
each step changes one phase, and at most the lease or the run record with it.  What the
fence guarantees therefore holds of the calls wherever their steps meet its conditions.
-/

namespace Ironclaw.Capabilities

open HostApi RunState Authorization Lib ResumeStage CapabilityHost ResumeRequest CapabilityLease
open ResumeStore
open List

/-! ## The one lease -/

variable {fingerprint : InvocationFingerprint}

namespace LeaseTable

variable {table after : LeaseTable} {now : Timestamp} {op : LeaseOp}
  {leaseId sole : CapabilityGrantId} {lease : CapabilityLease}

theorem get_some (found : table.get leaseId = some lease) :
    lease ∈ table.leases ∧ lease.grantId = leaseId :=
  ⟨mem_of_find?_eq_some found, by simpa using find?_some found⟩

theorem get_put (table : LeaseTable) (lease : CapabilityLease) :
    (table.put lease).get lease.grantId = (table.get lease.grantId).map fun _ => lease := by
  change (table.leases.map fun stored => if stored.grantId = lease.grantId then lease
    else stored).find? (·.grantId = lease.grantId) =
      (table.leases.find? (·.grantId = lease.grantId)).map fun _ => lease
  induction table.leases with
  | nil => rfl
  | cons stored _ ih =>
    by_cases same : stored.grantId = lease.grantId
    · simp [same]
    · simpa [same] using ih

theorem run_ok (ran : table.run now op leaseId = .ok after) :
    ∃ lease next, table.get leaseId = some lease ∧ op.mutate now lease = .ok next ∧
      next.grantId = leaseId ∧ after = table.put next := by
  unfold run at ran
  split at ran
  · cases ran
  next lease found =>
    obtain ⟨next, mutated, rfl⟩ := map_eq_ok.mp ran
    refine ⟨lease, next, found, mutated, ?_, rfl⟩
    rw [(LeaseOp.mutate_keeps mutated).1, (get_some found).2]

def status (table : LeaseTable) (leaseId : CapabilityGrantId) : Option CapabilityLeaseStatus :=
  (table.get leaseId).map (·.status)

/-- The fingerprinted lease of the invocation is the one with the given id. -/
def Sole (table : LeaseTable) (sole : CapabilityGrantId) : Prop :=
  ∀ lease ∈ table.leases, lease.invocationFingerprint.isSome = true ↔ lease.grantId = sole

def OneFingerprinted (table : LeaseTable) : Prop :=
  ∀ first ∈ table.leases, ∀ second ∈ table.leases,
    first.invocationFingerprint.isSome = true → second.invocationFingerprint.isSome = true →
      first.grantId = second.grantId

theorem OneFingerprinted.exists_sole (one : table.OneFingerprinted) : ∃ sole, table.Sole sole := by
  by_cases present : ∃ lease ∈ table.leases, lease.invocationFingerprint.isSome = true
  · obtain ⟨lease, listed, fingerprinted⟩ := present
    refine ⟨lease.grantId, fun other inTable => ⟨fun also => ?_, fun same => ?_⟩⟩
    · exact one other inTable lease listed also fingerprinted
    · rw [inj_on_of_nodup_map table.distinct inTable listed same]
      exact fingerprinted
  · -- No lease is fingerprinted: any id that is not in use will do.
    obtain ⟨unused, fresh⟩ :=
      Infinite.exists_notMem_finset (table.leases.map (·.grantId.uuid)).toFinset
    refine ⟨⟨unused⟩, fun other inTable => ⟨fun also => absurd ⟨other, inTable, also⟩ present, ?_⟩⟩
    intro same
    refine absurd (mem_toFinset.mpr (mem_map.mpr ⟨other, inTable, ?_⟩)) fresh
    rw [same]

variable (isSole : table.Sole sole)
include isSole

/-- What a lease call that succeeds does to the one lease. -/
theorem Sole.run (ran : table.run now op leaseId = .ok after) :
    after.Sole sole ∧ ∃ lease next, op.mutate now lease = .ok next ∧
      (lease.invocationFingerprint.isSome = true ↔ leaseId = sole) ∧
      (leaseId = sole → table.status sole = some lease.status ∧
        after.status sole = some next.status) := by
  obtain ⟨lease, next, found, mutated, nextId, rfl⟩ := run_ok ran
  obtain ⟨listed, leaseIdEq⟩ := get_some found
  obtain ⟨_, keptFingerprint⟩ := LeaseOp.mutate_keeps mutated
  have fingerprinted := isSole lease listed
  rw [leaseIdEq] at fingerprinted
  refine ⟨?_, lease, next, mutated, fingerprinted, ?_⟩
  · intro stored inTable
    obtain ⟨old, inOld, rfl⟩ := mem_map.mp inTable
    split
    · rw [keptFingerprint, nextId]
      exact fingerprinted
    · exact isSole old inOld
  · rintro rfl
    have changed := table.get_put next
    rw [nextId, found] at changed
    exact ⟨by rw [status, found]; rfl, by rw [status, changed]; rfl⟩

/-- A lease call that asks for the fingerprint is a call on the one lease. -/
theorem Sole.matched {required reached : CapabilityLeaseStatus}
    (spec : ∀ {lease next}, op.mutate now lease = .ok next → lease.status = required ∧
      lease.invocationFingerprint = some fingerprint ∧ next = { lease with status := reached })
    (ran : table.run now op leaseId = .ok after) :
    after.Sole sole ∧ leaseId = sole ∧ table.status sole = some required ∧
      after.status sole = some reached := by
  obtain ⟨soleAfter, _, _, mutated, fingerprinted, statuses⟩ := isSole.run ran
  obtain ⟨held, matching, rfl⟩ := spec mutated
  have same : leaseId = sole := fingerprinted.mp (by simp [matching])
  obtain ⟨before, later⟩ := statuses same
  exact ⟨soleAfter, same, before.trans (congrArg some held), later⟩

theorem Sole.abortDispatchClaimed (ran : table.run now .abortDispatchClaimed sole = .ok after) :
    after.Sole sole ∧ (table.status sole = some .dispatching ∨ table.status sole = some .claimed) ∧
      after.status sole = some .claimed := by
  obtain ⟨soleAfter, _, _, mutated, _, statuses⟩ := isSole.run ran
  obtain ⟨held, rfl⟩ := abortDispatchClaimed_ok mutated
  obtain ⟨before, later⟩ := statuses rfl
  exact ⟨soleAfter, held.imp (before.trans <| congrArg some ·) (before.trans <| congrArg some ·),
    later⟩

theorem Sole.consume (ran : table.run now .consume sole = .ok after) :
    after.Sole sole ∧ after.status sole = some .consumed := by
  obtain ⟨soleAfter, _, _, mutated, fingerprinted, statuses⟩ := isSole.run ran
  obtain ⟨_, _, _, _, rfl⟩ := consume_ok mutated
  refine ⟨soleAfter, (statuses rfl).2.trans ?_⟩
  simp [spent, fingerprinted.mpr rfl]

theorem Sole.revoke (ran : table.run now .revoke sole = .ok after) :
    after.Sole sole ∧ after.status sole = some .revoked := by
  obtain ⟨soleAfter, _, _, mutated, _, statuses⟩ := isSole.run ran
  cases mutated
  exact ⟨soleAfter, (statuses rfl).2⟩

end LeaseTable

namespace ResumeStore

variable {store after : ResumeStore} {answer : ResumeAnswer} {op : LeaseOp}
  {grantId : CapabilityGrantId}

theorem runLease_ok (ran : store.runLease answer op grantId = .ok after) :
    ∃ leases, store.leases.run answer.now op grantId = .ok leases ∧
      after = { store with leases } := by
  unfold runLease at ran
  split at ran
  · cases ran
  obtain ⟨leases, leasesRan, rfl⟩ := map_eq_ok.mp ran
  exact ⟨leases, leasesRan, rfl⟩

theorem tryLease_cases (tried : store.tryLease answer op grantId = after) :
    after = store ∨ ∃ leases, store.leases.run answer.now op grantId = .ok leases ∧
      after = { store with leases } := by
  unfold tryLease at tried
  split at tried
  next _ ran => exact .inr (tried ▸ runLease_ok ran)
  · exact .inl tried.symm

theorem writeRun_cases {update : RunRecord → RunRecord}
    (wrote : store.writeRun answer update = after) : (answer.runStateFault ≠ none ∧ after = store) ∨
      after = { store with run := store.run.map update } := by
  unfold writeRun at wrote
  split at wrote
  next fault => exact .inl ⟨by simp [fault], wrote.symm⟩
  · exact .inr wrote.symm

end ResumeStore

/-! ## Phases -/

def ResumeRequest.callKind (request : ResumeRequest) : CallKind :=
  match request.kind with
  | .resume _ => .resume
  | .authResume (some _) => .fenced
  | .authResume none => .unfenced

abbrev callKinds {ι : Type} (requests : ι → ResumeRequest) : ι → CallKind :=
  fun call => (requests call).callKind

/-- The phase of a call at a stage; a run that is marked failed behind a dispatch that
succeeded is still to be reported. -/
def ResumeStage.phase (succeeded : Bool) : ResumeStage → Phase
  | .start | .returned _ => .idle
  | .readApproval _ _ | .findActive _ | .findClaimed _ | .claimFresh _ _ | .beginDispatch _ _
  | .authorize (.pendingClaim _ _) | .authorize .noPriorLease | .claimPending _ _ _ => .checking
  | .authorize (.alreadyClaimed _) | .prepare _ _ | .dispatch _ _ => .holding
  | .completeObligations _ _ _ | .consume _ _ | .completeRun _ => .settled
  | .failRun _ _ _ => if succeeded then .failing else .leaving
  | .blockAuth _ _ _ => .bounced
  | .abortLease _ _ => .aborting
  | .revokeLease _ _ => .leaving

/-- The lease a stage holds is the one lease; only a call without an approval holds none. -/
def HeldBy (request : ResumeRequest) (sole : CapabilityGrantId) : Option CapabilityGrantId → Prop
  | some grantId => grantId = sole ∧ request.callKind ≠ .unfenced
  | none => request.callKind = .unfenced

variable {sole : CapabilityGrantId} {claimed : Option CapabilityGrantId}

theorem HeldBy.eq_sole {request : ResumeRequest} (held : HeldBy request sole claimed) :
    ∀ grantId ∈ claimed, grantId = sole := by
  rintro grantId rfl
  exact held.1

/-- What is known of a call at a stage. -/
def ResumeStage.Fits (request : ResumeRequest) (sole : CapabilityGrantId) (succeeded : Prop) :
    ResumeStage → Prop
  | .start => ¬succeeded
  | .readApproval _ _ | .findActive _ => request.callKind ≠ .unfenced ∧ ¬succeeded
  | .findClaimed _ | .claimFresh _ _ | .beginDispatch _ _ => request.callKind = .fenced ∧ ¬succeeded
  | .authorize (.pendingClaim _ _) | .claimPending _ _ _ => request.callKind = .resume ∧ ¬succeeded
  | .authorize (.alreadyClaimed grantId) =>
    (grantId = sole ∧ request.callKind = .fenced) ∧ ¬succeeded
  | .authorize .noPriorLease => request.callKind = .unfenced ∧ ¬succeeded
  | .prepare claimed _ | .dispatch claimed _ | .blockAuth _ claimed _ =>
    HeldBy request sole claimed ∧ ¬succeeded
  | .completeObligations claimed _ _ => HeldBy request sole claimed ∧ succeeded
  | .failRun _ toRevoke _ => ∀ grantId ∈ toRevoke, grantId = sole
  | .abortLease grantId _ => (grantId = sole ∧ request.callKind ≠ .unfenced) ∧ ¬succeeded
  | .consume grantId _ | .revokeLease grantId _ => grantId = sole
  | .completeRun _ | .returned _ => True

/-! ## What the checks in front of a dispatch lead to -/

/-- The call returns an error, at once or after it has marked the run failed. -/
def ResumeStage.Refuses (stage : ResumeStage) : Prop :=
  (∃ error, stage = .reject error) ∨ ∃ errorKind error, stage = .failWith errorKind error

namespace CapabilityHost

variable {host : CapabilityHost} {request : ResumeRequest} {answer : ResumeAnswer}
  {store : ResumeStore} {stage : ResumeStage}

theorem status_of_readRun {record : RunRecord} {context : ExecutionContext} {status : RunStatus}
    (found : store.readRun answer context = .ok record) (same : ¬ record.status ≠ status) :
    store.run.map (·.status) = some status := by
  have stored : store.run = some record := by
    revert found
    fun_cases store.readRun answer context <;> rintro ⟨⟩
    assumption
  rw [stored, Option.map_some, not_not.mp same]

theorem resumeStart_cases {approvalRequestId : ApprovalRequestId}
    (started : host.resumeStart request answer approvalRequestId store = stage) :
    (∃ error, stage = .reject error) ∨ store.run.map (·.status) = some .blockedApproval ∧
        ((∃ errorKind error, stage = .failWith errorKind error) ∨
          ∃ fingerprint, stage = .readApproval approvalRequestId fingerprint) := by
  subst started
  fun_cases host.resumeStart request answer approvalRequestId store <;> first
    | exact .inl ⟨_, rfl⟩
    | exact .inr ⟨status_of_readRun ‹_› ‹_›, .inl ⟨_, _, rfl⟩⟩
    | exact .inr ⟨status_of_readRun ‹_› ‹_›, .inr ⟨_, rfl⟩⟩

theorem authResumeStart_cases {approvalRequestId : Option ApprovalRequestId}
    (started : host.authResumeStart request answer approvalRequestId store = stage) :
    (∃ error, stage = .reject error) ∨ store.run.map (·.status) = some .blockedAuth ∧
        ((∃ errorKind error, stage = .failWith errorKind error) ∨
          (approvalRequestId = none ∧ stage = .authorize .noPriorLease) ∨
          ∃ approval fingerprint, approvalRequestId = some approval ∧
            stage = .readApproval approval fingerprint) := by
  subst started
  fun_cases host.authResumeStart request answer approvalRequestId store <;> first
    | exact .inl ⟨_, rfl⟩
    | exact .inr ⟨status_of_readRun ‹_› ‹_›, .inl ⟨_, _, rfl⟩⟩
    | exact .inr ⟨status_of_readRun ‹_› ‹_›, .inr (.inl ⟨rfl, rfl⟩)⟩
    | exact .inr ⟨status_of_readRun ‹_› ‹_›, .inr (.inr ⟨_, _, rfl, rfl⟩)⟩

theorem checkApproval_cases {approvalRequestId : ApprovalRequestId}
    (checked : host.checkApproval request answer approvalRequestId fingerprint = stage) :
    stage.Refuses ∨ stage = .findActive fingerprint := by
  subst checked
  fun_cases host.checkApproval request answer approvalRequestId fingerprint <;> first
    | exact .inl (.inl ⟨_, rfl⟩)
    | exact .inl (.inr ⟨_, _, rfl⟩)
    | exact .inr rfl

theorem lookForActive_cases (known : request.callKind ≠ .unfenced)
    (looked : lookForActive request answer fingerprint store = stage) :
    stage.Refuses ∨ (request.callKind = .resume ∧ ∃ grantId,
        stage = .authorize (.pendingClaim grantId fingerprint)) ∨
      request.callKind = .fenced ∧ ((∃ grantId, stage = .claimFresh grantId fingerprint) ∨
          stage = .findClaimed fingerprint) := by
  subst looked
  unfold lookForActive
  cases kind : request.kind with
  | resume =>
    cases store.leases.matchingApprovalLease _ _ _ _ with
    | none => exact .inl (.inr ⟨_, _, rfl⟩)
    | some => exact .inr (.inl ⟨by simp [callKind, kind], _, rfl⟩)
  | authResume approval =>
    have fenced : request.callKind = .fenced := by
      cases approval with
      | none => exact absurd (by simp [callKind, kind]) known
      | some => simp [callKind, kind]
    cases store.leases.matchingApprovalLease _ _ _ _ with
    | none => exact .inr (.inr ⟨fenced, .inr rfl⟩)
    | some => exact .inr (.inr ⟨fenced, .inl ⟨_, rfl⟩⟩)

end CapabilityHost

theorem ResumeStage.claimLost_refuses (error : CapabilityLeaseError) :
    (claimLost error).Refuses := by
  unfold claimLost
  split
  · exact .inl ⟨_, rfl⟩
  · exact .inr ⟨_, _, rfl⟩

variable {error : CapabilityInvocationError}

theorem ResumeStage.phase_failRun {errorKind : String} {toRevoke : Option CapabilityGrantId}
    {taken : Prop} [Decidable taken] (untaken : ¬taken) :
    (failRun errorKind toRevoke error).phase taken = .leaving := by
  simp [phase, untaken]

/-! ## Steps -/

section

variable {ι : Type} [DecidableEq ι] {host : CapabilityHost} {requests : ι → ResumeRequest}

/-- The part of the state the fence speaks of. -/
def ResumeState.fence (sole : CapabilityGrantId) (state : ResumeState ι) : FenceState ι where
  phase := fun call => (state.stages call).phase (call ∈ state.effects)
  lease := state.store.leases.status sole
  run := state.store.run.map (·.status)
  effects := state.effects

/-- The one lease stays the one lease, and every call is at a stage that fits it. -/
structure ResumeState.Tidy (requests : ι → ResumeRequest) (sole : CapabilityGrantId)
    (state : ResumeState ι) : Prop where
  oneLease : state.store.leases.Sole sole
  fits : ∀ call, (state.stages call).Fits (requests call) sole (call ∈ state.effects)

def ResumeStage.isIdle : ResumeStage → Bool
  | .start | .returned _ => true
  | _ => false

/-- What the fence asks of a step at a stage.  A call without an approval starts alone, over
a run record whose writes succeed, and nobody starts beside it; a `resume_json` call does
not abort the lease while it is dispatching. -/
def FencedStage (requests : ι → ResumeRequest) (durable : Bool) (state : ResumeState ι)
    (caller : ι) (answer : ResumeAnswer) : ResumeStage → Prop
  | .start =>
    ((requests caller).callKind = .unfenced →
      durable = true ∧ ∀ other, other ≠ caller → (state.stages other).isIdle = true) ∧
    ∀ other, other ≠ caller → (requests other).callKind = .unfenced →
      (state.stages other).isIdle = true
  | .abortLease grantId _ =>
    (requests caller).callKind = .resume → state.store.leases.status grantId ≠ some .dispatching
  | .completeRun _ | .failRun _ _ _ | .blockAuth _ _ _ =>
    durable = true → answer.runStateFault = none
  | _ => True

instance [Fintype ι] (requests : ι → ResumeRequest) (durable : Bool) (state : ResumeState ι)
    (caller : ι) (answer : ResumeAnswer) :
    ∀ stage, Decidable (FencedStage requests durable state caller answer stage)
  | .start => inferInstanceAs (Decidable (_ ∧ _))
  | .abortLease _ _ | .completeRun _ | .failRun _ _ _ | .blockAuth _ _ _ =>
    inferInstanceAs (Decidable (_ → _))
  | .readApproval _ _ | .findActive _ | .findClaimed _ | .claimFresh _ _ | .beginDispatch _ _
  | .authorize _ | .claimPending _ _ _ | .prepare _ _ | .dispatch _ _
  | .completeObligations _ _ _ | .consume _ _ | .revokeLease _ _ | .returned _ =>
    inferInstanceAs (Decidable True)

/-- The steps under which the fence holds. -/
def FencedStep (requests : ι → ResumeRequest) (durable : Bool) (state : ResumeState ι)
    (label : ι × ResumeAnswer) : Prop :=
  FencedStage requests durable state label.1 label.2 (state.stages label.1)

instance [Fintype ι] (requests : ι → ResumeRequest) (durable : Bool) (state : ResumeState ι)
    (label : ι × ResumeAnswer) : Decidable (FencedStep requests durable state label) :=
  inferInstanceAs (Decidable (FencedStage requests durable state label.1 label.2 _))

variable {state : ResumeState ι} {caller : ι} {answer : ResumeAnswer} {durable : Bool}
  {sole : CapabilityGrantId} {store : ResumeStore} {stage : ResumeStage}

omit [DecidableEq ι] in
theorem ResumeState.Tidy.fits_at (tidy : state.Tidy requests sole)
    (here : state.stages caller = stage) :
    stage.Fits (requests caller) sole (caller ∈ state.effects) :=
  here ▸ tidy.fits caller

omit [DecidableEq ι] in
theorem FencedStep.at_stage (fenced : FencedStep requests durable state (caller, answer))
    (here : state.stages caller = stage) : FencedStage requests durable state caller answer stage :=
  here ▸ fenced

theorem ResumeStage.phase_of_isIdle (idle : stage.isIdle = true) (succeeded : Bool) :
    stage.phase succeeded = .idle := by
  cases stage <;> first | rfl | cases idle

theorem ResumeState.fence_phase (here : state.stages caller = stage) :
    (state.fence sole).phase caller = stage.phase (caller ∈ state.effects) := by
  rw [← here]
  rfl

theorem ResumeState.mem_step_effects {call : ι} (different : call ≠ caller) :
    call ∈ (state.step host requests (caller, answer)).effects ↔ call ∈ state.effects := by
  simp only [step]
  split <;> simp [different]

theorem ResumeState.fence_step
    (advanced : host.advance (requests caller) answer state.store (state.stages caller) =
      (store, stage)) :
    (state.step host requests (caller, answer)).fence sole = { (state.fence sole).move caller
          (stage.phase (caller ∈ (state.step host requests (caller, answer)).effects)) with
        lease := store.leases.status sole
        run := store.run.map (·.status)
        effects := (state.step host requests (caller, answer)).effects } := by
  refine FenceState.ext ?_ (by simp [fence, step, advanced]) (by simp [fence, step, advanced]) rfl
  funext call
  change ((state.step host requests (caller, answer)).stages call).phase
    (call ∈ (state.step host requests (caller, answer)).effects) =
      ((state.fence sole).move caller _).phase call
  rw [FenceState.move_phase]
  split
  next same =>
    subst same
    simp [step, advanced]
  next different =>
    simp only [mem_step_effects different]
    simp [step, different, fence]

theorem ResumeState.Tidy.step (tidy : state.Tidy requests sole)
    (advanced : host.advance (requests caller) answer state.store (state.stages caller) =
      (store, stage))
    (oneLease : store.leases.Sole sole)
    (fits : stage.Fits (requests caller) sole
      (caller ∈ (state.step host requests (caller, answer)).effects)) :
    (state.step host requests (caller, answer)).Tidy requests sole := by
  refine ⟨by simpa [ResumeState.step, advanced] using oneLease, fun call => ?_⟩
  by_cases same : call = caller
  · subst same
    simpa [ResumeState.step, advanced] using fits
  · rw [propext (mem_step_effects same)]
    simpa [ResumeState.step, same] using tidy.fits call

/-- After a step of `caller` the state is tidy and one move of the fence away. -/
def ResumeState.Follows (requests : ι → ResumeRequest) (durable : Bool) (sole : CapabilityGrantId)
    (caller : ι) (state after : ResumeState ι) : Prop :=
  after.Tidy requests sole ∧
    FenceMove (callKinds requests) durable caller (state.fence sole)
      (after.fence sole)

/-- The step of `caller` with `answer` keeps the calls behind the fence. -/
abbrev ResumeState.StepFollows (host : CapabilityHost) (requests : ι → ResumeRequest)
    (durable : Bool) (sole : CapabilityGrantId) (caller : ι) (answer : ResumeAnswer)
    (state : ResumeState ι) : Prop :=
  Follows requests durable sole caller state (state.step host requests (caller, answer))

/-- The step of `caller` leads to these stores and this stage and does not take effect. -/
structure ResumeState.Goes (host : CapabilityHost) (requests : ι → ResumeRequest) (caller : ι)
    (answer : ResumeAnswer) (state : ResumeState ι) (store : ResumeStore) (stage : ResumeStage) :
    Prop where
  advanced : host.advance (requests caller) answer state.store (state.stages caller) =
    (store, stage)
  plain : (state.stages caller).takesEffect answer = false

omit [DecidableEq ι] in
theorem ResumeState.goes_at {current : ResumeStage} (here : state.stages caller = current)
    (advanced : host.advance (requests caller) answer state.store current = (store, stage))
    (plain : current.takesEffect answer = false) :
    state.Goes host requests caller answer store stage := by
  subst here
  exact ⟨advanced, plain⟩

omit [DecidableEq ι] in
theorem ResumeState.goes_on (host : CapabilityHost) (requests : ι → ResumeRequest)
    (answer : ResumeAnswer) {current : ResumeStage} (here : state.stages caller = current)
    (plain : current.takesEffect answer = false) :
    let after := host.advance (requests caller) answer state.store current
    state.Goes host requests caller answer after.1 after.2 :=
  goes_at here rfl plain

namespace ResumeState.Tidy

variable (tidy : state.Tidy requests sole)

include tidy

/-- A step over the stores that does not take effect. -/
theorem follows (goes : state.Goes host requests caller answer store stage)
    (oneLease : store.leases.Sole sole)
    (fits : stage.Fits (requests caller) sole (caller ∈ state.effects))
    (moved : FenceMove (callKinds requests) durable caller (state.fence sole)
      { (state.fence sole).move caller (stage.phase (caller ∈ state.effects)) with
        lease := store.leases.status sole
        run := store.run.map (·.status) }) :
    state.StepFollows host requests durable sole caller answer := by
  have effects : (state.step host requests (caller, answer)).effects = state.effects := by
    simp [ResumeState.step, goes.plain]
  refine ⟨tidy.step goes.advanced oneLease (by rw [effects]; exact fits), ?_⟩
  rw [fence_step goes.advanced, effects]
  exact moved

theorem follows_quiet {phase : Phase}
    (goes : state.Goes host requests caller answer state.store stage)
    (fits : stage.Fits (requests caller) sole (caller ∈ state.effects))
    (now : (state.fence sole).phase caller = phase)
    (started : phase ≠ .idle ∨ stage.phase (caller ∈ state.effects) = .idle)
    (quiet : Phase.Quiet (requests caller).callKind phase (stage.phase (caller ∈ state.effects))) :
    state.StepFollows host requests durable sole caller answer := by
  subst now
  exact tidy.follows goes tidy.oneLease fits (.quiet started quiet)

open ResumeStage (Fits phase_failRun)

theorem follows_refusal (goes : state.Goes host requests caller answer state.store stage)
    (checking : (state.fence sole).phase caller = .checking)
    (untaken : caller ∉ state.effects) (refuses : stage.Refuses) :
    state.StepFollows host requests durable sole caller answer := by
  have unreported : ¬Phase.checking.Reporting := by simp [Phase.Reporting]
  rcases refuses with ⟨error, rfl⟩ | ⟨_, _, rfl⟩
  · exact tidy.follows_quiet goes trivial checking (.inr rfl) (.finish unreported)
  · exact tidy.follows_quiet goes (by simp [failWith, Fits]) checking
      (.inl (by simp))
      (phase_failRun untaken ▸ .giveUp unreported)

/-! ### Before the dispatch -/

theorem follows_start (fenced : FencedStep requests durable state (caller, answer))
    (here : state.stages caller = .start) :
    state.StepFollows host requests durable sole caller answer := by
  have untaken : caller ∉ state.effects := tidy.fits_at here
  have idle : (state.fence sole).phase caller = .idle := fence_phase here
  have refused : ∀ error, state.Goes host requests caller answer state.store (.reject error) →
      state.StepFollows host requests durable sole caller answer := by
    intro error goes
    exact tidy.follows_quiet goes trivial idle (.inr rfl) .stay
  -- A call that goes on has read the status its entry point wants.
  have entered : ∀ stage, state.Goes host requests caller answer state.store stage →
      stage.Fits (requests caller) sole (caller ∈ state.effects) →
      stage.phase (caller ∈ state.effects) = .checking ∨
        stage.phase (caller ∈ state.effects) = .leaving →
      ((requests caller).callKind = .resume → (state.fence sole).run = some .blockedApproval) →
      ((requests caller).callKind ≠ .resume → (state.fence sole).run = some .blockedAuth) →
      state.StepFollows host requests durable sole caller answer := by
    intro stage goes fits next onResume onOther
    refine tidy.follows goes tidy.oneLease fits
      (.enter idle next onResume onOther ?_ ?_)
    · intro unfenced
      obtain ⟨isDurable, others⟩ := (fenced.at_stage here).1 unfenced
      exact ⟨isDurable, fun other different =>
        phase_of_isIdle (others other different) _⟩
    · intro other different unfenced
      exact phase_of_isIdle ((fenced.at_stage here).2 other different unfenced) _
  have goes := goes_on host requests answer here rfl
  rw [advance] at goes
  split at goes
  next approvalRequestId kind =>
    have resume : (requests caller).callKind = .resume := by
      simp [callKind, kind]
    generalize started : host.resumeStart (requests caller) answer approvalRequestId
      state.store = stage at goes
    rcases resumeStart_cases started with
      ⟨error, rfl⟩ | ⟨blocked, ⟨errorKind, error, rfl⟩ | ⟨fingerprint, rfl⟩⟩
    · exact refused error goes
    · exact entered _ goes nofun (.inr (phase_failRun untaken)) (fun _ => blocked)
        (absurd resume)
    · exact entered _ goes ⟨by simp [resume], untaken⟩ (.inl rfl) (fun _ => blocked)
        (absurd resume)
  next approvalRequestId kind =>
    have notResume : (requests caller).callKind ≠ .resume := by
      cases approvalRequestId <;> simp [callKind, kind]
    generalize started : host.authResumeStart (requests caller) answer approvalRequestId
      state.store = stage at goes
    rcases authResumeStart_cases started with ⟨error, rfl⟩ |
      ⟨blocked, ⟨errorKind, error, rfl⟩ | ⟨rfl, rfl⟩ | ⟨approval, fingerprint, rfl, rfl⟩⟩
    · exact refused error goes
    · exact entered _ goes nofun (.inr (phase_failRun untaken))
        (absurd · notResume) (fun _ => blocked)
    · exact entered _ goes ⟨by simp [callKind, kind], untaken⟩ (.inl rfl)
        (absurd · notResume) (fun _ => blocked)
    · exact entered _ goes ⟨by simp [callKind, kind], untaken⟩ (.inl rfl)
        (absurd · notResume) (fun _ => blocked)

theorem follows_lookup (goes : state.Goes host requests caller answer state.store stage)
    (checking : (state.fence sole).phase caller = .checking) (untaken : caller ∉ state.effects)
    (next : stage.Refuses ∨ stage.phase (caller ∈ state.effects) = .checking ∧
      stage.Fits (requests caller) sole (caller ∈ state.effects)) :
    state.StepFollows host requests durable sole caller answer := by
  rcases next with refuses | ⟨still, fits⟩
  · exact tidy.follows_refusal goes checking untaken refuses
  · exact tidy.follows_quiet goes fits checking (.inl nofun) (still ▸ .stay)

variable {grantId : CapabilityGrantId}

/-- A lease call in front of the dispatch: the loser is refused, the winner takes the one
lease from one status to another and goes on. -/
theorem follows_claim {op : LeaseOp} {current next : ResumeStage}
    {required reached : CapabilityLeaseStatus} (here : state.stages caller = current)
    (advanced : host.advance (requests caller) answer state.store current =
      match state.store.runLease answer op grantId with
      | .ok after => (after, next)
      | .error error => (state.store, .claimLost error))
    (plain : current.takesEffect answer = false)
    (checking : current.phase (caller ∈ state.effects) = .checking)
    (untaken : caller ∉ state.effects)
    (won : ∀ {lease next}, op.mutate answer.now lease = .ok next → lease.status = required ∧
      lease.invocationFingerprint = some fingerprint ∧ next = { lease with status := reached })
    (fits : grantId = sole → next.Fits (requests caller) sole (caller ∈ state.effects))
    (moved : (state.fence sole).phase caller = .checking →
      (state.fence sole).lease = some required →
      FenceMove (callKinds requests) durable caller (state.fence sole)
        { (state.fence sole).move caller (next.phase (caller ∈ state.effects)) with
          lease := some reached }) :
    state.StepFollows host requests durable sole caller answer := by
  have now : (state.fence sole).phase caller = _ := (fence_phase here).trans checking
  cases ran : state.store.runLease answer op grantId with
  | error error =>
    rw [ran] at advanced
    exact tidy.follows_refusal (goes_at here advanced plain) now untaken (claimLost_refuses error)
  | ok =>
    rw [ran] at advanced
    obtain ⟨_, leasesRan, rfl⟩ := runLease_ok ran
    obtain ⟨soleAfter, same, before, later⟩ := tidy.oneLease.matched won leasesRan
    refine tidy.follows (goes_at here advanced plain) soleAfter (fits same) ?_
    rw [later]
    exact moved now before

variable {obligations : List Obligation}

theorem follows_claimPending
    (here : state.stages caller = .claimPending grantId fingerprint obligations) :
    state.StepFollows host requests durable sole caller answer := by
  obtain ⟨resume, untaken⟩ := tidy.fits_at here
  exact tidy.follows_claim here rfl rfl rfl untaken claim_ok
    (fun same => ⟨⟨same, by simp [resume]⟩, untaken⟩) (.claimPending resume)

theorem follows_claimFresh (here : state.stages caller = .claimFresh grantId fingerprint) :
    state.StepFollows host requests durable sole caller answer := by
  obtain ⟨fenced, untaken⟩ := tidy.fits_at here
  exact tidy.follows_claim here rfl rfl rfl untaken claim_ok (fun _ => ⟨fenced, untaken⟩)
    (.claimFresh fenced)

theorem follows_beginDispatch (here : state.stages caller = .beginDispatch grantId fingerprint) :
    state.StepFollows host requests durable sole caller answer := by
  obtain ⟨fenced, untaken⟩ := tidy.fits_at here
  exact tidy.follows_claim here rfl rfl rfl untaken beginDispatchClaimed_ok
    (fun same => ⟨⟨same, fenced⟩, untaken⟩) (.begin fenced)

theorem follows_authorize {lease : ResumedLeaseState}
    (here : state.stages caller = .authorize lease) :
    state.StepFollows host requests durable sole caller answer := by
  have fits := tidy.fits_at here
  have untaken : caller ∉ state.effects := by
    cases lease <;> exact fits.2
  have now : (state.fence sole).phase caller =
      (authorize lease).phase (caller ∈ state.effects) := fence_phase here
  have started : (authorize lease).phase (caller ∈ state.effects) ≠ .idle := by
    cases lease <;> simp [phase]
  have refused : ∀ {errorKind error}, state.Goes host requests caller answer state.store
      (.failRun errorKind lease.toRevoke error) →
        state.StepFollows host requests durable sole caller answer := by
    intro _ error goes
    refine tidy.follows_quiet goes ?_ now (.inl started)
      (phase_failRun untaken ▸ .giveUp ?_)
    · cases lease with
      | alreadyClaimed grantId =>
        rintro _ ⟨rfl⟩
        exact fits.1.1
      | pendingClaim grantId fingerprint
      | noPriorLease => simp [Fits, ResumedLeaseState.toRevoke]
    · cases lease <;> simp [phase, Phase.Reporting]
  have goes := goes_on host requests answer here rfl
  rw [advance, authorizeResumed] at goes
  split at goes
  · cases lease with
    | pendingClaim => exact tidy.follows_quiet goes fits now (.inl started) .stay
    | alreadyClaimed =>
      exact tidy.follows_quiet goes ⟨⟨fits.1.1, by simp [fits.1.2]⟩, untaken⟩ now (.inl started)
        .stay
    | noPriorLease => exact tidy.follows_quiet goes fits now (.inl started) (fits.1 ▸ .pass)
  · exact refused goes
  · exact refused goes

/-! ### The dispatch -/

theorem follows_afterError
    (goes : state.Goes host requests caller answer state.store (.afterError claimed error))
    (holding : (state.fence sole).phase caller = .holding)
    (held : HeldBy (requests caller) sole claimed) (untaken : caller ∉ state.effects) :
    state.StepFollows host requests durable sole caller answer := by
  have unreported : ¬Phase.holding.Reporting := by simp [Phase.Reporting]
  unfold afterError at goes
  split at goes
  · exact tidy.follows_quiet goes held.eq_sole holding (.inl (by simp))
      (phase_failRun untaken ▸ .giveUp unreported)
  · exact tidy.follows_quiet goes ⟨held, untaken⟩ holding (.inl (by simp)) .sentBack
  · cases claimed with
    | some => exact tidy.follows_quiet goes held.1 holding (.inl (by simp)) (.giveUp unreported)
    | none =>
      exact tidy.follows_quiet goes trivial holding (.inl (by simp))
        (.finish unreported)

theorem follows_prepare (here : state.stages caller = .prepare claimed obligations) :
    state.StepFollows host requests durable sole caller answer := by
  obtain ⟨held, untaken⟩ := tidy.fits_at here
  have holding : (state.fence sole).phase caller = .holding := fence_phase here
  have goes := goes_on host requests answer here rfl
  rw [advance] at goes
  split at goes
  · exact tidy.follows_quiet goes ⟨held, untaken⟩ holding (.inl nofun) .stay
  · exact tidy.follows_afterError goes holding held untaken

theorem follows_dispatch (here : state.stages caller = .dispatch claimed obligations) :
    state.StepFollows host requests durable sole caller answer := by
  obtain ⟨held, untaken⟩ := tidy.fits_at here
  have holding : (state.fence sole).phase caller = .holding := fence_phase here
  cases dispatched : answer.dispatched with
  | error error =>
    have goes : state.Goes host requests caller answer state.store (.afterError claimed
        (enrichDispatchErrorCredentialRequirements error obligations).toInvocation) :=
      goes_at here (by simp only [advance, dispatched])
        (by simp only [takesEffect, dispatched]; rfl)
    exact tidy.follows_afterError goes holding held untaken
  | ok result =>
    have advanced : host.advance (requests caller) answer state.store (state.stages caller) =
        (state.store, .completeObligations claimed obligations result) := by
      simp only [here, advance, dispatched]
    have effects : (state.step host requests (caller, answer)).effects =
        state.effects ++ [caller] := by
      simp [ResumeState.step, here, takesEffect, dispatched, Except.isOk, Except.toBool]
    have taken : caller ∈ (state.step host requests (caller, answer)).effects := by
      simp [effects]
    refine ⟨tidy.step advanced tidy.oneLease ⟨held, taken⟩, ?_⟩
    rw [fence_step advanced, effects]
    exact .takeEffect holding

/-! ### After the dispatch -/

variable {result : CapabilityDispatchResult}

theorem follows_completeObligations
    (here : state.stages caller = .completeObligations claimed obligations result) :
    state.StepFollows host requests durable sole caller answer := by
  obtain ⟨held, taken⟩ := tidy.fits_at here
  have settled : (state.fence sole).phase caller = .settled := fence_phase here
  have goes := goes_on host requests answer here rfl
  rw [advance] at goes
  split at goes
  · cases claimed with
    | some => exact tidy.follows_quiet goes held.1 settled (.inl nofun) .stay
    | none => exact tidy.follows_quiet goes trivial settled (.inl nofun) .stay
  next error _ =>
    have failing : (failRun (obligationInvocationErrorKind error) claimed
        error).phase (caller ∈ state.effects) = .failing := by
      simp [phase, taken]
    exact tidy.follows_quiet goes held.eq_sole settled (.inl nofun) (failing ▸ .spoiled)

theorem follows_consume (here : state.stages caller = .consume grantId result) :
    state.StepFollows host requests durable sole caller answer := by
  obtain rfl : grantId = _ := tidy.fits_at here
  have settled : (state.fence grantId).phase caller = .settled := fence_phase here
  have goes : state.Goes host requests caller answer
      (state.store.tryLease answer .consume grantId) (.completeRun result) := goes_at here rfl rfl
  generalize tried : state.store.tryLease answer .consume grantId = after at goes
  rcases tryLease_cases tried with rfl | ⟨_, ran, rfl⟩
  · exact tidy.follows_quiet goes trivial settled (.inl nofun) .stay
  obtain ⟨soleAfter, consumed⟩ := tidy.oneLease.consume ran
  refine tidy.follows goes soleAfter trivial ?_
  rw [consumed]
  exact .shut (.inr ⟨settled, rfl⟩) (.inl rfl)

theorem follows_revokeLease (here : state.stages caller = .revokeLease grantId error) :
    state.StepFollows host requests durable sole caller answer := by
  obtain rfl : grantId = _ := tidy.fits_at here
  have leaving : (state.fence grantId).phase caller = .leaving := fence_phase here
  have goes : state.Goes host requests caller answer
      (state.store.tryLease answer .revoke grantId) (.reject error) := goes_at here rfl rfl
  generalize tried : state.store.tryLease answer .revoke grantId = after at goes
  rcases tryLease_cases tried with rfl | ⟨_, ran, rfl⟩
  · exact tidy.follows_quiet goes trivial leaving (.inr rfl)
      (.finish (by simp [Phase.Reporting]))
  · obtain ⟨soleAfter, revoked⟩ := tidy.oneLease.revoke ran
    refine tidy.follows goes soleAfter trivial ?_
    rw [revoked]
    exact .shut (.inl ⟨leaving, rfl⟩) (.inr rfl)

theorem follows_abortLease (fenced : FencedStep requests durable state (caller, answer))
    (here : state.stages caller = .abortLease grantId error) :
    state.StepFollows host requests durable sole caller answer := by
  obtain ⟨⟨rfl, notUnfenced⟩, _⟩ := tidy.fits_at here
  have aborting : (state.fence grantId).phase caller = .aborting := fence_phase here
  have finish : Phase.Quiet (requests caller).callKind .aborting .idle :=
    .finish (by simp [Phase.Reporting])
  have goes : state.Goes host requests caller answer
      (state.store.tryLease answer .abortDispatchClaimed grantId) (.reject error) :=
    goes_at here rfl rfl
  generalize tried : state.store.tryLease answer .abortDispatchClaimed grantId = after at goes
  rcases tryLease_cases tried with rfl | ⟨_, ran, rfl⟩
  · exact tidy.follows_quiet goes trivial aborting (.inr rfl) finish
  obtain ⟨soleAfter, dispatching | claimed, aborted⟩ := tidy.oneLease.abortDispatchClaimed ran
  · have notResume : (requests caller).callKind ≠ .resume :=
      fun resume => fenced.at_stage here resume dispatching
    refine tidy.follows goes soleAfter trivial ?_
    rw [aborted]
    exact .abort (CallKind.eq_fenced notResume notUnfenced) aborting dispatching
  · refine tidy.follows goes soleAfter trivial ?_
    rw [aborted, ← claimed]
    exact .quiet (.inr rfl) (aborting ▸ finish)

/-! ### Writes of the run record -/

/-- A write of the run record, which happens or, over a store that may fail, is lost. -/
theorem follows_write (kept : durable = true → answer.runStateFault = none)
    {update : RunRecord → RunRecord} {status : RunStatus} {next : ResumeStage}
    (goes : state.Goes host requests caller answer (state.store.writeRun answer update) next)
    (updated : ∀ record, (update record).status = status)
    (fits : next.Fits (requests caller) sole (caller ∈ state.effects))
    (written : FenceMove (callKinds requests) durable caller
      (state.fence sole)
      (((state.fence sole).move caller (next.phase (caller ∈ state.effects))).write status))
    (lost : durable = false → FenceMove (callKinds requests) durable caller
      (state.fence sole) ((state.fence sole).move caller (next.phase (caller ∈ state.effects)))) :
    state.StepFollows host requests durable sole caller answer := by
  generalize wrote : state.store.writeRun answer update = after at goes
  rcases writeRun_cases wrote with ⟨fault, rfl⟩ | rfl
  · refine tidy.follows goes tidy.oneLease fits (lost ?_)
    by_contra isDurable
    exact fault (kept (by simpa using isDurable))
  · refine tidy.follows goes tidy.oneLease fits ?_
    have status_eq : (state.store.run.map update).map (·.status) =
        (state.fence sole).run.map fun _ => status := by
      simp only [fence, Option.map_map, Function.comp_def, updated]
    rw [status_eq]
    exact written

section

variable (fenced : FencedStep requests durable state (caller, answer))
include fenced

theorem follows_completeRun (here : state.stages caller = .completeRun result) :
    state.StepFollows host requests durable sole caller answer := by
  have settled : (state.fence sole).phase caller = .settled := fence_phase here
  refine tidy.follows_write (fenced.at_stage here) (goes_at here rfl rfl) (fun _ => rfl) trivial
    ?_ ?_
  · exact .report (.inl settled) (.inl rfl) (.inl rfl)
  · exact fun mayFail => .reportLost mayFail (.inl settled) (.inl rfl)

theorem follows_failRun {errorKind : String} {toRevoke : Option CapabilityGrantId}
    (here : state.stages caller = .failRun errorKind toRevoke error) :
    state.StepFollows host requests durable sole caller answer := by
  have onlySole := tidy.fits_at here
  have current : (state.fence sole).phase caller = .failing ∨
      (state.fence sole).phase caller = .leaving := by
    rw [fence_phase here]
    simp only [phase]
    split
    · exact .inl rfl
    · exact .inr rfl
  have next : (revokeThenReject toRevoke error).phase (caller ∈ state.effects) =
      .idle ∨ (revokeThenReject toRevoke error).phase (caller ∈ state.effects) =
        .leaving := by
    cases toRevoke with
    | none => exact .inl rfl
    | some grantId => exact .inr rfl
  refine tidy.follows_write (fenced.at_stage here) (goes_at here rfl rfl) (fun _ => rfl) ?_ ?_ ?_
  · cases toRevoke with
    | none => exact trivial
    | some grantId => exact onlySole grantId rfl
  · exact .report (.inr current) next (.inr rfl)
  · exact fun mayFail => .reportLost mayFail (.inr current) next

theorem follows_blockAuth {errorKind : String}
    (here : state.stages caller = .blockAuth errorKind claimed error) :
    state.StepFollows host requests durable sole caller answer := by
  obtain ⟨held, untaken⟩ := tidy.fits_at here
  have bounced : (state.fence sole).phase caller = .bounced := fence_phase here
  cases claimed with
  | some =>
    refine tidy.follows_write (fenced.at_stage here) (goes_at here rfl rfl) (fun _ => rfl)
      ⟨held, untaken⟩ ?_ ?_
    · exact .blockAuth bounced (.inl rfl)
    · exact fun mayFail => .blockAuthLost mayFail bounced (.inl rfl)
  | none =>
    refine tidy.follows_write (fenced.at_stage here) (goes_at here rfl rfl) (fun _ => rfl)
      trivial ?_ ?_
    · exact .blockAuth bounced (.inr rfl)
    · exact fun mayFail => .blockAuthLost mayFail bounced (.inr rfl)

end

/-! ### Every step -/

theorem follows_any (fenced : FencedStep requests durable state (caller, answer)) :
    state.StepFollows host requests durable sole caller answer := by
  cases here : state.stages caller with
  | start => exact tidy.follows_start fenced here
  | readApproval _ fingerprint =>
    obtain ⟨known, untaken⟩ := tidy.fits_at here
    refine tidy.follows_lookup (goes_at here rfl rfl) (fence_phase here) untaken ?_
    refine (checkApproval_cases rfl).imp_right fun next => ?_
    rw [next]
    exact ⟨rfl, known, untaken⟩
  | findActive fingerprint =>
    obtain ⟨known, untaken⟩ := tidy.fits_at here
    refine tidy.follows_lookup (goes_at here rfl rfl) (fence_phase here) untaken ?_
    refine (lookForActive_cases known rfl).imp_right ?_
    rintro (⟨resume, grantId, next⟩ | ⟨isFenced, ⟨_, next⟩ | next⟩)
    all_goals rw [next]
    · exact ⟨rfl, resume, untaken⟩
    · exact ⟨rfl, isFenced, untaken⟩
    · exact ⟨rfl, isFenced, untaken⟩
  | findClaimed =>
    obtain ⟨isFenced, untaken⟩ := tidy.fits_at here
    refine tidy.follows_lookup (goes_at here rfl rfl) (fence_phase here) untaken ?_
    unfold lookForClaimed
    split
    · exact .inr ⟨rfl, isFenced, untaken⟩
    · exact .inl (.inr ⟨_, _, rfl⟩)
  | claimFresh => exact tidy.follows_claimFresh here
  | beginDispatch => exact tidy.follows_beginDispatch here
  | authorize => exact tidy.follows_authorize here
  | claimPending => exact tidy.follows_claimPending here
  | prepare => exact tidy.follows_prepare here
  | dispatch => exact tidy.follows_dispatch here
  | completeObligations => exact tidy.follows_completeObligations here
  | consume => exact tidy.follows_consume here
  | completeRun => exact tidy.follows_completeRun fenced here
  | failRun => exact tidy.follows_failRun fenced here
  | blockAuth => exact tidy.follows_blockAuth fenced here
  | abortLease => exact tidy.follows_abortLease fenced here
  | revokeLease => exact tidy.follows_revokeLease here
  | returned =>
    exact tidy.follows_quiet (goes_at here rfl rfl) (tidy.fits_at here) (fence_phase here)
      (.inr rfl) .stay

end ResumeState.Tidy

/-! ## Runs -/

theorem ResumeState.initial_fenced (oneLease : store.leases.Sole sole) :
    (initial store : ResumeState ι).Tidy requests sole ∧
      FenceHolds (callKinds requests) durable
        ((initial store : ResumeState ι).fence sole) := by
  refine ⟨⟨oneLease, fun call => not_mem_nil⟩, ?_⟩
  have dead : ∀ call, ¬(((initial store : ResumeState ι).fence sole).phase call).Live := by
    intro call
    change ¬Phase.idle.Live
    decide
  by_cases blocked : store.run.map (·.status) = some .blockedAuth
  · refine .inr ⟨?_, fun call _ => dead call, ?_, ?_, ?_, ?_, ?_, ?_, ?_, Nat.zero_le 1⟩
    · change store.run.map (·.status) ≠ _
      simp [blocked]
    · exact fun _ _ checking => absurd checking (by simp [fence, initial, phase])
    · exact fun _ _ busy => absurd rfl busy
    · exact fun first _ alive => absurd alive.2 (not_or.mpr ⟨dead first, nofun⟩)
    · exact fun call alive => absurd alive.2 (not_or.mpr ⟨dead call, nofun⟩)
    · exact absurd rfl
    · exact absurd rfl
    · exact absurd rfl
  · exact .inl ⟨blocked, fun _ _ => rfl, fun first _ alive => absurd alive (dead first),
      fun call alive => absurd alive (dead call), absurd rfl,
      Nat.zero_le 1⟩

theorem ResumeState.reachable_fenced (oneLease : store.leases.Sole sole)
    (reached : (resumeSystem host requests store).Reachable (FencedStep requests durable) state) :
    FenceHolds (callKinds requests) durable (state.fence sole) := by
  refine (reached.invariant (fun state => state.Tidy requests sole ∧
    FenceHolds (callKinds requests) durable (state.fence sole)) ?_ ?_).2
  · rintro _ rfl
    exact initial_fenced oneLease
  · rintro before ⟨caller, answer⟩ _ ⟨tidy, holds⟩ allowed rfl
    obtain ⟨tidyAfter, moved⟩ := tidy.follows_any allowed
    exact ⟨tidyAfter, moved.keeps holds⟩

end

end Ironclaw.Capabilities
