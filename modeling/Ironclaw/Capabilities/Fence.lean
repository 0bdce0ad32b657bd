import Ironclaw.Authorization.Lease
import Ironclaw.RunState.Records

/-!
# The fence around a resumed dispatch

What matters for "one approval, one effect" is small: the status of the one lease, the
status of the run record, and for each call whether it may still dispatch.  The calls
move between phases; a call of `resume_json` may dispatch once it has moved the lease
from active to claimed, a call of `auth_resume_json` with an approval once it has moved
the lease from claimed to dispatching, and a call without an approval may dispatch
without asking anybody.

The moves below carry the conditions under which the fence holds: a `resume_json` call
does not abort a dispatching lease, and a call without an approval runs alone over a
run record whose writes succeed.
-/

namespace Ironclaw.Capabilities

open RunState Authorization

inductive CallKind where
  | resume
  | fenced
  | unfenced
  deriving DecidableEq

theorem CallKind.eq_fenced {kind : CallKind} (notResume : kind ≠ .resume)
    (notUnfenced : kind ≠ .unfenced) : kind = .fenced := by
  cases kind with
  | resume => exact absurd rfl notResume
  | fenced => rfl
  | unfenced => exact absurd rfl notUnfenced

inductive Phase where
  | idle
  | checking
  | holding
  | bounced
  | aborting
  | settled
  | failing
  | leaving
  deriving DecidableEq

/-- A call in such a phase may dispatch, or has just been sent back by a dispatch. -/
def Phase.Live (phase : Phase) : Prop := phase = .holding ∨ phase = .bounced

instance (phase : Phase) : Decidable phase.Live := inferInstanceAs (Decidable (_ ∨ _))

/-- The dispatch has succeeded and the run record does not say so yet. -/
def Phase.Reporting (phase : Phase) : Prop := phase = .settled ∨ phase = .failing

@[ext]
structure FenceState (ι : Type) where
  phase : ι → Phase
  lease : Option CapabilityLeaseStatus
  run : Option RunStatus
  effects : List ι

/-- No dispatch begins on such a lease any more. -/
def LeaseShut (lease : Option CapabilityLeaseStatus) : Prop :=
  lease ≠ some .active ∧ lease ≠ some .claimed

namespace FenceState

variable {ι : Type} [DecidableEq ι]

def move (state : FenceState ι) (call : ι) (phase : Phase) : FenceState ι :=
  { state with phase := Function.update state.phase call phase }

def write (state : FenceState ι) (status : RunStatus) : FenceState ι :=
  { state with run := state.run.map fun _ => status }

variable (state : FenceState ι) (call : ι) (phase : Phase)

theorem move_phase (other : ι) :
    (state.move call phase).phase other = if other = call then phase else state.phase other := by
  simp [move, Function.update_apply]

/-- What holds of every phase after a move: the new phase is looked at on its own. -/
theorem move_cases (holds : ι → Phase → Prop) (moved : holds call phase)
    (others : ∀ other, other ≠ call → holds other (state.phase other)) (other : ι) :
    holds other ((state.move call phase).phase other) := by
  rw [move_phase]
  split
  next same => exact same ▸ moved
  next different => exact others other different

end FenceState

section

variable {ι : Type} (kind : ι → CallKind) (durable : Bool)

/-! ## While the approval is being resumed -/

/-- The record has never been blocked on authentication, so only `resume_json` calls are
under way, and one of them at most has claimed the lease. -/
structure Approving (state : FenceState ι) : Prop where
  run : state.run ≠ some .blockedAuth
  others : ∀ call, kind call ≠ .resume → state.phase call = .idle
  sole : ∀ first second, (state.phase first).Live → (state.phase second).Live → first = second
  claimed : ∀ call, (state.phase call).Live → state.lease ≠ some .active
  spent : state.effects ≠ [] → state.lease ≠ some .active ∧ ∀ call, ¬(state.phase call).Live
  once : state.effects.length ≤ 1

namespace Approving

variable {kind} {state : FenceState ι} {call : ι} (approving : Approving kind state)

include approving

theorem setRun {run : Option RunStatus} (unblocked : run ≠ some .blockedAuth) :
    Approving kind { state with run } :=
  { approving with run := unblocked }

theorem setLease {status : CapabilityLeaseStatus} (inactive : status ≠ .active) :
    Approving kind { state with lease := some status } :=
  { approving with
    claimed := fun _ _ same => inactive (Option.some.inj same)
    spent := fun happened =>
      ⟨fun same => inactive (Option.some.inj same), (approving.spent happened).2⟩ }

theorem effects_nil_of_live (live : (state.phase call).Live) : state.effects = [] := by
  by_contra happened
  exact (approving.spent happened).2 call live

end Approving

/-! ## Once authentication has been asked for -/

/-- A call with an approval that has moved the lease to dispatching and not yet given it
back. -/
def Holds (state : FenceState ι) (call : ι) : Prop :=
  kind call = .fenced ∧ ((state.phase call).Live ∨ state.phase call = .aborting)

/-- No `resume_json` call may dispatch any more; of the others the lease lets one at a time
dispatch, and a call without an approval is alone. -/
structure Authenticating (state : FenceState ι) : Prop where
  run : state.run ≠ some .blockedApproval
  resumes : ∀ call, kind call = .resume → ¬(state.phase call).Live
  late : ∀ call, kind call = .resume → state.phase call = .checking → state.lease ≠ some .active
  alone : ∀ call, kind call = .unfenced → state.phase call ≠ .idle →
    durable = true ∧ ∀ other, other ≠ call → state.phase other = .idle
  sole : ∀ first second, Holds kind state first → Holds kind state second → first = second
  shut : ∀ call, Holds kind state call → LeaseShut state.lease
  dead : state.effects ≠ [] → ∀ call, ¬(state.phase call).Live ∧ ¬Holds kind state call ∧
    (kind call = .unfenced → state.phase call ≠ .checking)
  spent : state.effects ≠ [] → LeaseShut state.lease ∨
    durable = true ∧ (∀ call ∈ state.effects, kind call = .unfenced) ∧
      ∀ call, state.phase call ≠ .checking
  reported : state.effects ≠ [] → durable = true → state.run ≠ some .blockedAuth ∨
    ∃ call ∈ state.effects, (state.phase call).Reporting
  once : state.effects.length ≤ 1

namespace Authenticating

variable {kind} {durable} {state : FenceState ι} {call : ι}
    (auth : Authenticating kind durable state)

include auth

theorem setRun {run : Option RunStatus} (notApproval : run ≠ some .blockedApproval)
    (quiet : run ≠ some .blockedAuth ∨ state.effects = []) :
    Authenticating kind durable { state with run } :=
  { auth with
    run := notApproval
    reported := fun happened _ => .inl (quiet.resolve_right happened) }

/-- The lease is closed for good, or moved to dispatching. -/
theorem setLease {lease : Option CapabilityLeaseStatus} (shut : LeaseShut lease) :
    Authenticating kind durable { state with lease } :=
  { auth with
    late := fun _ _ _ => shut.1
    shut := fun _ _ => shut
    spent := fun _ => .inl shut }

theorem claimLease (free : ∀ call, ¬Holds kind state call) (nothing : state.effects = []) :
    Authenticating kind durable { state with lease := some .claimed } :=
  { auth with
    late := fun _ _ _ => by simp
    shut := fun call holds => absurd holds (free call)
    spent := absurd nothing }

theorem effects_nil_of_checking (checking : state.phase call = .checking)
    (opened : ¬LeaseShut state.lease) : state.effects = [] := by
  by_contra happened
  rcases auth.spent happened with shut | ⟨_, _, nobody⟩
  · exact opened shut
  · exact nobody call checking

end Authenticating

/-- At most one dispatch has succeeded, and none can any more if one has. -/
def FenceHolds (state : FenceState ι) : Prop :=
  Approving kind state ∨ Authenticating kind durable state

variable {kind durable} {state : FenceState ι}

theorem FenceHolds.once (holds : FenceHolds kind durable state) : state.effects.length ≤ 1 :=
  holds.elim (·.once) (·.once)

end

/-! ## Moves -/

/-- The phases a call goes through without touching the lease or the run record. -/
inductive Phase.Quiet : CallKind → Phase → Phase → Prop where
  | stay {kind : CallKind} {phase : Phase} : Quiet kind phase phase
  | giveUp {kind : CallKind} {phase : Phase} : ¬phase.Reporting → Quiet kind phase .leaving
  | finish {kind : CallKind} {phase : Phase} : ¬phase.Reporting → Quiet kind phase .idle
  | pass : Quiet .unfenced .checking .holding
  | sentBack {kind : CallKind} : Quiet kind .holding .bounced
  | spoiled {kind : CallKind} : Quiet kind .settled .failing

section

variable {ι : Type} [DecidableEq ι] (kind : ι → CallKind) (durable : Bool)

open Phase (Live Quiet Reporting)

/-- One move of a call.  `durable` says that every write of the run record succeeds. -/
inductive FenceMove (call : ι) : FenceState ι → FenceState ι → Prop where
  | enter {state : FenceState ι} {phase : Phase} :
      state.phase call = .idle → phase = .checking ∨ phase = .leaving →
      (kind call = .resume → state.run = some .blockedApproval) →
      (kind call ≠ .resume → state.run = some .blockedAuth) →
      (kind call = .unfenced → durable = true ∧ ∀ other, other ≠ call → state.phase other = .idle) →
      (∀ other, other ≠ call → kind other = .unfenced → state.phase other = .idle) →
      FenceMove call state (state.move call phase)
  | quiet {state : FenceState ι} {phase : Phase} : state.phase call ≠ .idle ∨ phase = .idle →
      Quiet (kind call) (state.phase call) phase →
      FenceMove call state (state.move call phase)
  | claimPending {state : FenceState ι} :
      kind call = .resume → state.phase call = .checking → state.lease = some .active →
      FenceMove call state { state.move call .holding with lease := some .claimed }
  | claimFresh {state : FenceState ι} :
      kind call = .fenced → state.phase call = .checking → state.lease = some .active →
      FenceMove call state { state.move call .checking with lease := some .claimed }
  | begin {state : FenceState ι} :
      kind call = .fenced → state.phase call = .checking → state.lease = some .claimed →
      FenceMove call state { state.move call .holding with lease := some .dispatching }
  | takeEffect {state : FenceState ι} : state.phase call = .holding → FenceMove call state
        { state.move call .settled with effects := state.effects ++ [call] }
  | blockAuth {state : FenceState ι} {phase : Phase} :
      state.phase call = .bounced → phase = .aborting ∨ phase = .idle →
      FenceMove call state ((state.move call phase).write .blockedAuth)
  | blockAuthLost {state : FenceState ι} {phase : Phase} :
      durable = false → state.phase call = .bounced → phase = .aborting ∨ phase = .idle →
      FenceMove call state (state.move call phase)
  | abort {state : FenceState ι} :
      kind call = .fenced → state.phase call = .aborting → state.lease = some .dispatching →
      FenceMove call state { state.move call .idle with lease := some .claimed }
  | shut {state : FenceState ι} {phase : Phase} {status : CapabilityLeaseStatus} :
      state.phase call = .leaving ∧ phase = .idle ∨ state.phase call = .settled ∧ phase = .settled →
      status = .consumed ∨ status = .revoked →
      FenceMove call state { state.move call phase with lease := some status }
  | report {state : FenceState ι} {phase : Phase} {status : RunStatus} :
      state.phase call = .settled ∨ state.phase call = .failing ∨ state.phase call = .leaving →
      phase = .idle ∨ phase = .leaving → status = .completed ∨ status = .failed →
      FenceMove call state ((state.move call phase).write status)
  | reportLost {state : FenceState ι} {phase : Phase} : durable = false →
      state.phase call = .settled ∨ state.phase call = .failing ∨ state.phase call = .leaving →
      phase = .idle ∨ phase = .leaving →
      FenceMove call state (state.move call phase)

namespace Approving

variable {kind} {state : FenceState ι} {call : ι} {phase : Phase}
  (approving : Approving kind state)

include approving

/-- A call may move to a phase that is not more alive than the one it leaves. -/
theorem move (live : phase.Live → (state.phase call).Live)
    (other : kind call ≠ .resume → phase = .idle) : Approving kind (state.move call phase) := by
  have before := state.move_cases call phase
    (fun other next => next.Live → (state.phase other).Live) live fun _ _ => id
  refine ⟨approving.run, ?_, ?_, ?_, ?_, approving.once⟩
  · exact state.move_cases call phase (fun caller next => kind caller ≠ .resume → next = .idle)
      other fun caller _ => approving.others caller
  · intro first second inFirst inSecond
    exact approving.sole first second (before first inFirst) (before second inSecond)
  · intro caller alive
    exact approving.claimed caller (before caller alive)
  · intro happened
    obtain ⟨inactive, dead⟩ := approving.spent happened
    exact ⟨inactive, fun caller alive => dead caller (before caller alive)⟩

theorem claim (resume : kind call = .resume) (active : state.lease = some .active) :
    Approving kind { state.move call .holding with lease := some .claimed } := by
  have only := state.move_cases call .holding (fun other next => next.Live → other = call)
    (fun _ => rfl) fun other _ alive => absurd active (approving.claimed other alive)
  refine ⟨approving.run, ?_, ?_, ?_, ?_, approving.once⟩
  · exact state.move_cases call .holding (fun caller next => kind caller ≠ .resume → next = .idle)
      (absurd resume) fun caller _ => approving.others caller
  · intro first second inFirst inSecond
    exact (only first inFirst).trans (only second inSecond).symm
  · intro _ _ same
    cases same
  · intro happened
    exact absurd active (approving.spent happened).1

omit [DecidableEq ι] in
theorem resume_of_busy (busy : state.phase call ≠ .idle) : kind call = .resume := by
  by_contra other
  exact busy (approving.others call other)

theorem takeEffect (holding : state.phase call = .holding) :
    Approving kind { state.move call .settled with effects := state.effects ++ [call] } := by
  have live : (state.phase call).Live := .inl holding
  have resume : kind call = .resume := approving.resume_of_busy (by simp [holding])
  have moved : Approving kind (state.move call .settled) :=
    approving.move (fun _ => live) (absurd resume)
  have dead := state.move_cases call .settled (fun _ next => ¬next.Live) (by decide)
    fun other different alive => different (approving.sole other call alive live)
  exact { moved with
    spent := fun _ => ⟨approving.claimed call live, dead⟩
    once := by simp [approving.effects_nil_of_live live] }

end Approving

namespace Authenticating

variable {kind} {durable} {state : FenceState ι} {call : ι} {phase : Phase}
  (auth : Authenticating kind durable state)

include auth

omit [DecidableEq ι] in
theorem idle_of_unfenced (busy : state.phase call ≠ .idle) {other : ι} (different : other ≠ call)
    (unfenced : kind other = .unfenced) : state.phase other = .idle := by
  by_contra notIdle
  exact busy ((auth.alone other unfenced notIdle).2 call (Ne.symm different))

/-- A call changes its phase: what the fence asks of the new phase, with the others as they
are. -/
theorem change (resumes : kind call = .resume → ¬phase.Live)
    (late : kind call = .resume → phase = .checking → state.lease ≠ some .active)
    (alone : kind call = .unfenced → phase ≠ .idle →
      durable = true ∧ ∀ other, other ≠ call → state.phase other = .idle)
    (apart : phase ≠ .idle → ∀ other, other ≠ call → kind other = .unfenced →
      state.phase other = .idle)
    (holds : kind call = .fenced → phase.Live ∨ phase = .aborting →
      LeaseShut state.lease ∧ ∀ other, other ≠ call → ¬Holds kind state other)
    (dead : state.effects ≠ [] → ¬phase.Live ∧ (kind call = .fenced → phase ≠ .aborting) ∧
        (kind call = .unfenced → phase ≠ .checking))
    (spent : state.effects ≠ [] → phase = .checking → LeaseShut state.lease)
    (reporting : (state.phase call).Reporting →
      phase.Reporting ∨ state.run ≠ some .blockedAuth ∨ durable = false) :
    Authenticating kind durable (state.move call phase) := by
  have held : ∀ other, Holds kind (state.move call phase) other →
      other = call ∧ LeaseShut state.lease ∧ (∀ other, other ≠ call → ¬Holds kind state other) ∨
        other ≠ call ∧ Holds kind state other :=
    state.move_cases call phase
      (fun other next => kind other = .fenced ∧ (next.Live ∨ next = .aborting) →
        other = call ∧ LeaseShut state.lease ∧ (∀ other, other ≠ call → ¬Holds kind state other) ∨
          other ≠ call ∧ Holds kind state other)
      (fun ⟨fenced, alive⟩ => .inl ⟨rfl, holds fenced alive⟩)
      fun other different alive => .inr ⟨different, alive⟩
  refine ⟨auth.run, ?_, ?_, ?_, ?_, ?_, ?_, ?_, ?_, auth.once⟩
  · exact state.move_cases call phase (fun caller next => kind caller = .resume → ¬next.Live)
      resumes fun caller _ => auth.resumes caller
  · exact state.move_cases call phase
      (fun caller next => kind caller = .resume → next = .checking → state.lease ≠ some .active)
      late fun caller _ => auth.late caller
  · intro caller unfenced notIdle
    by_cases same : caller = call
    · subst same
      rw [state.move_phase, if_pos rfl] at notIdle
      obtain ⟨isDurable, others⟩ := alone unfenced notIdle
      refine ⟨isDurable, fun other different => ?_⟩
      rw [state.move_phase, if_neg different]
      exact others other different
    rw [state.move_phase, if_neg same] at notIdle
    obtain ⟨isDurable, others⟩ := auth.alone caller unfenced notIdle
    refine ⟨isDurable, state.move_cases call phase
      (fun other next => other ≠ caller → next = .idle) (fun _ => ?_) fun other _ => others other⟩
    by_contra busy
    exact notIdle (apart busy caller same unfenced)
  · intro first second inFirst inSecond
    rcases held first inFirst with ⟨rfl, _, free⟩ | ⟨apartFirst, heldFirst⟩ <;>
      rcases held second inSecond with ⟨rfl, _, free⟩ | ⟨apartSecond, heldSecond⟩
    · rfl
    · exact absurd heldSecond (free second apartSecond)
    · exact absurd heldFirst (free first apartFirst)
    · exact auth.sole first second heldFirst heldSecond
  · intro caller isHeld
    rcases held caller isHeld with ⟨_, shut, _⟩ | ⟨_, before⟩
    · exact shut
    · exact auth.shut caller before
  · intro happened
    obtain ⟨notLive, notAborting, notChecking⟩ := dead happened
    exact state.move_cases call phase
      (fun caller next => ¬next.Live ∧ ¬(kind caller = .fenced ∧ (next.Live ∨ next = .aborting)) ∧
        (kind caller = .unfenced → next ≠ .checking))
      ⟨notLive, fun ⟨fenced, alive⟩ => alive.elim notLive (notAborting fenced), notChecking⟩
      fun caller _ => auth.dead happened caller
  · intro happened
    by_cases checking : phase = .checking
    · exact .inl (spent happened checking)
    refine (auth.spent happened).imp_right fun ⟨isDurable, unfenced, nobody⟩ => ?_
    exact ⟨isDurable, unfenced, state.move_cases call phase (fun _ next => next ≠ .checking)
      checking fun caller _ => nobody caller⟩
  · intro happened isDurable
    rcases auth.reported happened isDurable with written | ⟨caller, listed, reports⟩
    · exact .inl written
    by_cases same : caller = call
    · subst same
      rcases reporting reports with still | written | lost
      · exact .inr ⟨caller, listed, by rw [state.move_phase, if_pos rfl]; exact still⟩
      · exact .inl written
      · rw [isDurable] at lost
        cases lost
    · exact .inr ⟨caller, listed, by rw [state.move_phase, if_neg same]; exact reports⟩

/-- A call may move to a phase that is not more alive than the one it leaves, and may stop
reporting once the record has been written. -/
theorem move (live : phase.Live → (state.phase call).Live)
    (checking : phase = .checking → state.phase call = .checking)
    (aborting : phase = .aborting → (state.phase call).Live ∨ state.phase call = .aborting)
    (busy : phase ≠ .idle → state.phase call ≠ .idle) (reporting : (state.phase call).Reporting →
      phase.Reporting ∨ state.run ≠ some .blockedAuth ∨ durable = false) :
    Authenticating kind durable (state.move call phase) := by
  refine auth.change (fun resume alive => auth.resumes call resume (live alive))
    (fun resume isChecking => auth.late call resume (checking isChecking))
    (fun unfenced notIdle => auth.alone call unfenced (busy notIdle))
    (fun notIdle _ => auth.idle_of_unfenced (busy notIdle)) ?_ ?_ ?_ reporting
  · intro fenced alive
    have held : Holds kind state call :=
      ⟨fenced, alive.elim (fun alive => .inl (live alive)) aborting⟩
    exact ⟨auth.shut call held,
      fun other different holds => different (auth.sole other call holds held)⟩
  · intro happened
    obtain ⟨notLive, notHolds, notChecking⟩ := auth.dead happened call
    exact ⟨fun alive => notLive (live alive),
      fun fenced isAborting => notHolds ⟨fenced, aborting isAborting⟩,
      fun unfenced isChecking => notChecking unfenced (checking isChecking)⟩
  · intro happened isChecking
    rcases auth.spent happened with shut | ⟨_, _, nobody⟩
    · exact shut
    · exact absurd (checking isChecking) (nobody call)

theorem enter (idle : state.phase call = .idle) (next : phase = .checking ∨ phase = .leaving)
    (blocked : state.run = some .blockedAuth) (notResume : kind call ≠ .resume)
    (byItself : kind call = .unfenced →
      durable = true ∧ ∀ other, other ≠ call → state.phase other = .idle)
    (noOther : ∀ other, other ≠ call → kind other = .unfenced → state.phase other = .idle) :
    Authenticating kind durable (state.move call phase) := by
  have reporter : state.effects ≠ [] → durable = true →
      ∃ caller ∈ state.effects, caller ≠ call ∧ state.phase caller ≠ .idle := by
    intro happened isDurable
    rcases auth.reported happened isDurable with written | ⟨caller, listed, reports⟩
    · exact absurd blocked written
    have busy : state.phase caller ≠ .idle := by
      intro quiet
      rw [quiet] at reports
      simp [Reporting] at reports
    exact ⟨caller, listed, fun same => busy (same ▸ idle), busy⟩
  have dead : ¬phase.Live ∧ phase ≠ .aborting := by
    rcases next with rfl | rfl <;> simp [Live]
  refine auth.change (absurd · notResume) (absurd · notResume)
    (fun unfenced _ => byItself unfenced) (fun _ => noOther)
    (fun _ alive => absurd alive (not_or.mpr dead)) ?_ ?_ (by simp [idle, Reporting])
  · refine fun happened => ⟨dead.1, fun _ => dead.2, fun unfenced _ => ?_⟩
    -- A call without an approval is alone, so nobody is left to report.
    obtain ⟨isDurable, others⟩ := byItself unfenced
    obtain ⟨other, _, different, busy⟩ := reporter happened isDurable
    exact busy (others other different)
  · intro happened _
    rcases auth.spent happened with shut | ⟨isDurable, unfenced, _⟩
    · exact shut
    -- The reporting call has no approval, and nobody starts beside such a call.
    obtain ⟨other, listed, different, busy⟩ := reporter happened isDurable
    exact absurd (noOther other different (unfenced other listed)) busy

/-- A call gets hold of the dispatch: with an approval over a lease that is shut for the
others, or without one. -/
theorem hold (notResume : kind call ≠ .resume)
    (checking : state.phase call = .checking) (nothing : state.effects = [])
    (shut : kind call = .fenced → LeaseShut state.lease ∧ ∀ other, ¬Holds kind state other) :
    Authenticating kind durable (state.move call .holding) := by
  have busy : state.phase call ≠ .idle := by simp [checking]
  exact auth.change (absurd · notResume) (absurd · notResume)
    (fun unfenced _ => auth.alone call unfenced busy)
    (fun _ _ => auth.idle_of_unfenced busy)
    (fun fenced _ => (shut fenced).imp_right fun free other _ => free other)
    (absurd nothing) (absurd nothing) (by simp [checking, Reporting])

theorem takeEffect (holding : state.phase call = .holding) : Authenticating kind durable
      { state.move call .settled with effects := state.effects ++ [call] } := by
  have live : (state.phase call).Live := .inl holding
  have busy : state.phase call ≠ .idle := by simp [holding]
  have nothing : state.effects = [] := by
    by_contra happened
    exact (auth.dead happened call).1 live
  have moved : Authenticating kind durable (state.move call .settled) := by
    refine auth.move (fun _ => live) (by simp) (by simp) (fun _ => busy) ?_
    simp [holding, Reporting]
  have notResume : kind call ≠ .resume := fun resume => auth.resumes call resume live
  -- Beside a call that holds the lease nobody else is alive, and beside a call without an
  -- approval nobody else is under way.
  have others : ∀ other, other ≠ call → ¬(state.phase other).Live ∧ ¬Holds kind state other ∧
      (kind other = .unfenced → state.phase other ≠ .checking) := by
    intro other different
    by_cases unfenced : kind call = .unfenced
    · have idle := (auth.alone call unfenced busy).2 other different
      simp [idle, Live, Holds]
    · have fenced := CallKind.eq_fenced notResume unfenced
      have free : ¬Holds kind state other :=
        fun holds => different (auth.sole other call holds ⟨fenced, .inl live⟩)
      refine ⟨?_, free, fun isUnfenced => ?_⟩
      · intro alive
        cases shape : kind other with
        | resume => exact auth.resumes other shape alive
        | fenced => exact free ⟨shape, .inl alive⟩
        | unfenced =>
          rw [auth.idle_of_unfenced busy different shape] at alive
          simp [Live] at alive
      · simp [auth.idle_of_unfenced busy different isUnfenced]
  refine ⟨moved.run, moved.resumes, moved.late, moved.alone, moved.sole, moved.shut, ?_, ?_, ?_, ?_⟩
  · intro _
    exact state.move_cases call .settled
      (fun caller next => ¬next.Live ∧ ¬(kind caller = .fenced ∧ (next.Live ∨ next = .aborting)) ∧
        (kind caller = .unfenced → next ≠ .checking)) (by simp [Live]) others
  · intro _
    by_cases unfenced : kind call = .unfenced
    · obtain ⟨isDurable, idle⟩ := auth.alone call unfenced busy
      refine .inr ⟨isDurable, by simp [nothing, unfenced], ?_⟩
      exact state.move_cases call .settled (fun _ next => next ≠ .checking) (by simp)
        fun caller different => by simp [idle caller different]
    · exact .inl (auth.shut call ⟨CallKind.eq_fenced notResume unfenced, .inl live⟩)
  · intro _ _
    refine .inr ⟨call, by simp, ?_⟩
    change ((state.move call .settled).phase call).Reporting
    rw [state.move_phase, if_pos rfl]
    exact .inl rfl
  · simp [nothing]

end Authenticating

/-! ## Every move keeps the fence -/

variable {kind durable} {call : ι} {state before after : FenceState ι} {phase : Phase}

theorem Approving.blockAuth (approving : Approving kind state)
    (bounced : state.phase call = .bounced) (next : phase = .aborting ∨ phase = .idle) :
    Authenticating kind durable ((state.move call phase).write .blockedAuth) := by
  have live : (state.phase call).Live := .inr bounced
  have nothing := approving.effects_nil_of_live live
  have resume : kind call = .resume := approving.resume_of_busy (by simp [bounced])
  have idle := state.move_cases call phase
    (fun other next => kind other ≠ .resume → next = .idle) (absurd resume)
    fun other _ => approving.others other
  have free : ∀ other, ¬Holds kind ((state.move call phase).write .blockedAuth) other := by
    rintro other ⟨fenced, alive⟩
    change ((state.move call phase).phase other).Live ∨
      (state.move call phase).phase other = .aborting at alive
    rw [idle other (by simp [fenced])] at alive
    simp [Live] at alive
  refine ⟨?_, ?_, ?_, ?_, ?_, ?_, ?_, ?_, ?_, approving.once⟩
  · change state.run.map (fun _ => RunStatus.blockedAuth) ≠ some .blockedApproval
    cases state.run <;> simp
  · exact state.move_cases call phase (fun caller next => kind caller = .resume → ¬next.Live)
      (by rcases next with rfl | rfl <;> simp [Live])
      fun caller different _ alive => different (approving.sole caller call alive live)
  · exact fun _ _ _ => approving.claimed call live
  · intro caller unfenced notIdle
    exact absurd (idle caller (by simp [unfenced])) notIdle
  · exact fun first _ holds => absurd holds (free first)
  · exact fun caller holds => absurd holds (free caller)
  · exact absurd nothing
  · exact absurd nothing
  · exact absurd nothing

theorem Approving.quiet (approving : Approving kind state)
    (started : state.phase call ≠ .idle ∨ phase = .idle)
    (quiet : Quiet (kind call) (state.phase call) phase) :
    Approving kind (state.move call phase) := by
  refine approving.move ?_ ?_
  · generalize shape : kind call = callKind at quiet
    generalize now : state.phase call = current at quiet
    cases quiet with
    | stay => exact id
    | giveUp | finish | spoiled => simp [Live]
    | pass =>
      rw [approving.others call (by simp [shape])] at now
      cases now
    | sentBack => exact fun _ => .inl rfl
  · intro notResume
    exact started.resolve_left fun busy => busy (approving.others call notResume)

section

variable (auth : Authenticating kind durable state)
include auth

theorem Authenticating.quiet (started : state.phase call ≠ .idle ∨ phase = .idle)
    (quiet : Quiet (kind call) (state.phase call) phase) :
    Authenticating kind durable (state.move call phase) := by
  have busy : phase ≠ .idle → state.phase call ≠ .idle := started.resolve_right
  generalize shape : kind call = callKind at quiet
  generalize now : state.phase call = current at quiet
  cases quiet with
  | stay =>
    exact auth.move (by simp [now]) (by simp [now]) (by rw [now]; exact .inr) busy
      (by rw [now]; exact .inl)
  | giveUp unreported | finish unreported =>
    exact auth.move (by simp [Live]) (by simp) (by simp) busy
      (by rw [now]; exact fun reports => absurd reports unreported)
  | pass =>
    refine auth.hold (by simp [shape]) now ?_ (by simp [shape])
    by_contra happened
    exact (auth.dead happened call).2.2 shape now
  | sentBack =>
    exact auth.move (by simp [now, Live]) (by simp) (by simp) busy
      (by simp [now, Reporting])
  | spoiled =>
    exact auth.move (by simp [Live]) (by simp) (by simp) busy
      (by simp [now, Reporting])

theorem Authenticating.handOver (bounced : state.phase call = .bounced)
    (next : phase = .aborting ∨ phase = .idle) :
    Authenticating kind durable (state.move call phase) := by
  refine auth.move ?_ ?_ (fun _ => .inl (.inr bounced)) (by simp [bounced])
    (by simp [bounced, Reporting])
  · rcases next with rfl | rfl <;> simp [Live]
  · rcases next with rfl | rfl <;> simp

/-- A call stops: what it had to report is written, or writes may be lost. -/
theorem Authenticating.stop (busy : state.phase call ≠ .idle)
    (next : phase = .idle ∨ phase = .leaving)
    (written : state.run ≠ some .blockedAuth ∨ durable = false) :
    Authenticating kind durable (state.move call phase) := by
  refine auth.move ?_ ?_ ?_ (fun _ => busy) fun _ => .inr written
  · rcases next with rfl | rfl <;> simp [Live]
  · rcases next with rfl | rfl <;> simp
  · rcases next with rfl | rfl <;> simp

end

theorem Approving.stop (approving : Approving kind state) (busy : state.phase call ≠ .idle)
    (dead : ¬phase.Live) : Approving kind (state.move call phase) :=
  approving.move (fun alive => absurd alive dead)
    fun notResume => absurd (approving.others call notResume) busy

theorem FenceMove.keeps (moved : FenceMove kind durable call before after)
    (holds : FenceHolds kind durable before) : FenceHolds kind durable after := by
  cases moved with
  | enter idle next resumeRun otherRun byItself noOther =>
    rcases holds with approving | auth
    · have resume : kind call = .resume := by
        by_contra notResume
        exact approving.run (otherRun notResume)
      refine .inl (approving.move ?_ fun notResume => absurd resume notResume)
      rcases next with rfl | rfl <;> simp [Live]
    · have notResume : kind call ≠ .resume :=
        fun resume => auth.run (resumeRun resume)
      exact .inr (auth.enter idle next (otherRun notResume) notResume byItself noOther)
  | quiet started quiet => exact holds.imp (·.quiet started quiet) (·.quiet started quiet)
  | claimPending resume checking active =>
    rcases holds with approving | auth
    · exact .inl (approving.claim resume active)
    · exact absurd active (auth.late call resume checking)
  | claimFresh fenced checking active =>
    rcases holds with approving | auth
    · rw [approving.others call (by simp [fenced])] at checking
      cases checking
    · have opened : ¬LeaseShut before.lease := fun shut => shut.1 active
      have still : Authenticating kind durable (before.move call .checking) :=
        auth.quiet (.inl (by simp [checking])) (by rw [checking]; exact .stay)
      exact .inr (still.claimLease (fun other holds => opened (still.shut other holds))
        (auth.effects_nil_of_checking checking opened))
  | begin fenced checking claimed =>
    rcases holds with approving | auth
    · rw [approving.others call (by simp [fenced])] at checking
      cases checking
    · have opened : ¬LeaseShut before.lease := fun shut => shut.2 claimed
      have shut : LeaseShut (some CapabilityLeaseStatus.dispatching) := ⟨by simp, by simp⟩
      exact .inr ((auth.setLease shut).hold (by simp [fenced]) checking
        (auth.effects_nil_of_checking checking opened)
        fun _ => ⟨shut, fun other holds => opened (auth.shut other holds)⟩)
  | takeEffect holding => exact holds.imp (·.takeEffect holding) (·.takeEffect holding)
  | blockAuth bounced next =>
    rcases holds with approving | auth
    · exact .inr (approving.blockAuth bounced next)
    have nothing : before.effects = [] := by
      by_contra happened
      exact (auth.dead happened call).1 (.inr bounced)
    refine .inr ((auth.handOver bounced next).setRun ?_ (.inr nothing))
    change before.run.map (fun _ => RunStatus.blockedAuth) ≠ some .blockedApproval
    cases before.run <;> simp
  | blockAuthLost _ bounced next =>
    refine holds.imp (fun approving => approving.stop (by simp [bounced]) ?_)
      fun auth => auth.handOver bounced next
    rcases next with rfl | rfl <;> decide
  | abort fenced aborting =>
    rcases holds with approving | auth
    · rw [approving.others call (by simp [fenced])] at aborting
      cases aborting
    · have held : Holds kind before call := ⟨fenced, .inr aborting⟩
      have left : Authenticating kind durable (before.move call .idle) :=
        auth.quiet (.inr rfl) (.finish (by simp [aborting, Reporting]))
      refine .inr (left.claimLease ?_ ?_)
      · rintro other ⟨otherFenced, alive⟩
        rw [before.move_phase] at alive
        split at alive
        · simp [Live] at alive
        next different => exact different (auth.sole other call ⟨otherFenced, alive⟩ held)
      · by_contra happened
        exact (auth.dead happened call).2.1 held
  | @shut phase status next closed =>
    have busy : before.phase call ≠ .idle := by
      rcases next with ⟨leaving, _⟩ | ⟨settled, _⟩ <;> simp [*]
    have quiet : Quiet (kind call) (before.phase call) phase := by
      rcases next with ⟨leaving, rfl⟩ | ⟨settled, rfl⟩
      · exact .finish (by simp [leaving, Reporting])
      · rw [settled]
        exact .stay
    have shut : LeaseShut (some status) := by
      rcases closed with rfl | rfl <;> exact ⟨by simp, by simp⟩
    exact holds.imp
      (fun approving => (approving.quiet (.inl busy) quiet).setLease
        fun active => shut.1 (congrArg some active))
      fun auth => (auth.quiet (.inl busy) quiet).setLease shut
  | @report phase status current next written =>
    have busy : before.phase call ≠ .idle := by
      rcases current with now | now | now <;> simp [now]
    have dead : ¬phase.Live := by
      rcases next with rfl | rfl <;> decide
    have notAuth : before.run.map (fun _ => status) ≠ some .blockedAuth := by
      cases before.run <;> rcases written with rfl | rfl <;> simp
    have notApproval : before.run.map (fun _ => status) ≠ some .blockedApproval := by
      cases before.run <;> rcases written with rfl | rfl <;> simp
    exact holds.imp (fun approving => (approving.stop busy dead).setRun notAuth)
      fun auth => (auth.setRun notApproval (.inl notAuth)).stop busy next (.inl notAuth)
  | @reportLost phase lost current next =>
    have busy : before.phase call ≠ .idle := by
      rcases current with now | now | now <;> simp [now]
    have dead : ¬phase.Live := by
      rcases next with rfl | rfl <;> decide
    exact holds.imp (fun approving => approving.stop busy dead)
      fun auth => auth.stop busy next (.inr lost)

end

end Ironclaw.Capabilities
